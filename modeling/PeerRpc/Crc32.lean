import PeerRpc.Bytes

/-!
# PeerRpc.Crc32 -- the reflected 32-bit cyclic redundancy check

The check word of an octet string is the remainder of its polynomial, reflected, with the register
preset to ones and complemented at the end. `shift` moves the register by one bit, `step` by one
octet; `checksum` runs over the whole string. A run over `a ++ b` is a run over `b` from the
register that `a` leaves (`run_append`).
-/

namespace PeerRpc

namespace Crc32

/-- The reflected generator polynomial. -/
def polynomial : UInt32 := 0xedb88320

/-- The register moved by one bit. -/
def shift (r : UInt32) : UInt32 :=
  if r &&& 1 = 1 then (r >>> 1) ^^^ polynomial else r >>> 1

/-- The register moved by one octet. -/
def step (r : UInt32) (b : UInt8) : UInt32 :=
  let r := r ^^^ b.toUInt32
  shift (shift (shift (shift (shift (shift (shift (shift r)))))))

/-- The register after an octet string. -/
def run (r : UInt32) (bs : Bytes) : UInt32 := bs.foldl step r

/-- The check word of an octet string. -/
def checksum (bs : Bytes) : UInt32 := run 0xffffffff bs ^^^ 0xffffffff

@[simp] theorem run_nil (r : UInt32) : run r [] = r := rfl

@[simp] theorem run_cons (r : UInt32) (b : UInt8) (bs : Bytes) :
    run r (b :: bs) = run (step r b) bs := rfl

theorem run_append (r : UInt32) (a b : Bytes) : run r (a ++ b) = run (run r a) b := by
  simp [run]

-- the check word of the digits one to nine, by which implementations are compared
example : checksum [0x31, 0x32, 0x33, 0x34, 0x35, 0x36, 0x37, 0x38, 0x39] = 0xcbf43926 := by
  decide +kernel

end Crc32

end PeerRpc
