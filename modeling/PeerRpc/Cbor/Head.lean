import PeerRpc.Bytes
import PeerRpc.Float.Binary

/-!
# PeerRpc.Cbor.Head -- the heads of encoded items

Every item starts with a head: three bits of major type and an argument, which is either part of
the first octet or follows it in one, two, four or eight octets. `Head.encode` writes a head in its
shortest form, a number in the narrowest format that holds it exactly. `Head.size` is the length
of that form.
-/

namespace PeerRpc

namespace Cbor

/-- The head of an item. A length that is absent marks an item in parts that ends at a `stop`. -/
inductive Head where
  /-- The number itself. -/
  | positive (n : Nat)
  /-- The number `-1 - n`. -/
  | negative (n : Nat)
  | bytes (len : Option Nat)
  | text (len : Option Nat)
  | array (len : Option Nat)
  | map (len : Option Nat)
  | tag (n : Nat)
  | simple (n : Nat)
  | float (x : Binary64)
  | stop
  deriving DecidableEq, Inhabited

/-- The simple value for false. -/
abbrev simpleFalse : Nat := 20

/-- The simple value for true. -/
abbrev simpleTrue : Nat := 21

/-- The simple value for null. -/
abbrev simpleNull : Nat := 22

/-- The simple value for what is undefined. -/
abbrev simpleUndefined : Nat := 23

/-- A first octet of major type `major` with the shortest argument that holds `n`. -/
def encodeArgument (major n : Nat) : Bytes :=
  let lead (minor : Nat) : UInt8 := .ofNat (major * 32 + minor)
  if n < 24 then [lead n]
  else if n < 2 ^ 8 then lead 24 :: Bytes.bigEndian 1 n
  else if n < 2 ^ 16 then lead 25 :: Bytes.bigEndian 2 n
  else if n < 2 ^ 32 then lead 26 :: Bytes.bigEndian 4 n
  else lead 27 :: Bytes.bigEndian 8 n

/-- A first octet with a length, or with the mark of an item in parts. -/
def encodeLength (major : Nat) : Option Nat → Bytes
  | some n => encodeArgument major n
  | none => [.ofNat (major * 32 + 31)]

/-- A number in the narrowest format that holds it exactly. -/
def encodeFloat (x : Binary64) : Bytes :=
  match x.narrow? Binary.half with
  | some h => 0xf9 :: Bytes.bigEndian 2 h
  | none =>
    match x.narrow? Binary.single with
    | some s => 0xfa :: Bytes.bigEndian 4 s
    | none => 0xfb :: Bytes.bigEndian 8 x.bits.toNat

namespace Head

/-- A head in its shortest form. -/
def encode : Head → Bytes
  | positive n => encodeArgument 0 n
  | negative n => encodeArgument 1 n
  | bytes len => encodeLength 2 len
  | text len => encodeLength 3 len
  | array len => encodeLength 4 len
  | map len => encodeLength 5 len
  | tag n => encodeArgument 6 n
  | simple n => if n < 24 then [.ofNat (0xe0 + n)] else [0xf8, .ofNat n]
  | float x => encodeFloat x
  | stop => [0xff]

/-- The length of a head in its shortest form. -/
def size (h : Head) : Nat := h.encode.length

end Head

end Cbor

end PeerRpc
