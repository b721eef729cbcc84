import PeerRpc.Proofs.Bench.Alone
import PeerRpc.Proofs.Frame.Grammar

/-!
# PeerRpc.Proofs.Bench.Lengths -- lengths that a header cannot hold

The header of a frame has four octets for the length of its payload, but the limit of a channel may
be any number, and a message on its way out is compared with the limit only. So a header holds the
length of a message modulo `2 ^ 32` (`Frame.begins_toBytes`). A reader with the same limit cuts the
message there, whatever it makes of the part that it takes, and what it looks at next is the rest of
the message (`Frame.left_decode_toBytes`).

`lengths_announced` says this of every message that is let through and of all that an end writes in
any run: the length is right, the message is read back and the next frame starts behind it exactly
if the message is shorter than `2 ^ 32` octets.
-/

namespace PeerRpc

namespace Frame

variable {max : Nat} {f : Frame} {bs payload : Bytes}

/-! ## Headers of long payloads -/

/-- The length that the header in front of a buffer announces. -/
def announced (buffer : Bytes) : Nat := Bytes.ofBigEndian (buffer.take 4)

theorem Begins.announced {size : Nat} {type : UInt8} {word : UInt32} {body : Bytes}
    (h : Begins bs size type word body) : announced bs = size := by
  have htake : (Bytes.bigEndian 4 size ++ type :: (Bytes.bigEndian 4 word.toNat ++ body)).take 4 =
      Bytes.bigEndian 4 size := List.take_left' (Bytes.length_bigEndian 4 size)
  rw [Frame.announced, h.octets, htake, Bytes.ofBigEndian_bigEndian]
  exact Nat.mod_eq_of_lt h.fits

/-- **The octets of a frame begin with a header**, whatever the length of its payload. -/
theorem begins_toBytes (f : Frame) (rest : Bytes) :
    Begins (f.toBytes ++ rest) (f.payload.length % 2 ^ 32) f.type.octet f.checksum
      (f.payload ++ rest) := by
  refine ⟨Nat.mod_lt _ (by decide), ?_⟩
  have hword := Bytes.bigEndian_ofBigEndian (Bytes.bigEndian 4 f.payload.length)
  rw [Bytes.length_bigEndian, Bytes.ofBigEndian_bigEndian, show 256 ^ 4 = 2 ^ 32 from rfl] at hword
  rw [hword, toBytes, List.append_assoc, List.cons_append, List.append_assoc]

/-- **A reader cuts a payload at the length that is announced**, whatever it makes of the part. -/
theorem left_decode_toBytes (t : FrameType) (h : payload.length ≤ max) (rest : Bytes) :
    (decode max ((ofPayload t payload).toBytes ++ rest)).left
        ((ofPayload t payload).toBytes ++ rest) =
      payload.drop (payload.length % 2 ^ 32) ++ rest := by
  have hshort : payload.length % 2 ^ 32 ≤ payload.length := Nat.mod_le _ _
  have hpart : (payload.take (payload.length % 2 ^ 32)).length = payload.length % 2 ^ 32 :=
    List.length_take_of_le hshort
  have hbegins : Begins ((ofPayload t payload).toBytes ++ rest)
      (payload.take (payload.length % 2 ^ 32)).length t.octet (Crc32.checksum payload)
      (payload.take (payload.length % 2 ^ 32) ++
        (payload.drop (payload.length % 2 ^ 32) ++ rest)) := by
    rw [hpart, ← List.append_assoc, List.take_append_drop]
    exact begins_toBytes (ofPayload t payload) rest
  rw [decode_whole hbegins (hpart.trans_le (hshort.trans h)), FrameType.ofOctet_octet]
  -- the part is taken whether or not its check word is that of the whole payload
  dsimp only
  split <;> rfl

/-- **A frame is read back exactly if its header can hold its length.** -/
theorem decode_toBytes_iff (t : FrameType) (h : payload.length ≤ max) (rest : Bytes) :
    decode max ((ofPayload t payload).toBytes ++ rest) = .frame (ofPayload t payload) rest ↔
      payload.length < 2 ^ 32 := by
  constructor
  · intro hframe
    cases decode_eq_iff.mp hframe with
    | frame spelt octets => exact spelt.header.fits
  · intro hfits
    exact decode_toBytes ⟨rfl, h, hfits⟩ rest

end Frame

/-! ## Messages that are let through -/

/-- What becomes of a message of which the octets `bs` are written, at a reader with the same
limit. -/
structure ChannelLimits.Announces (l : ChannelLimits) (msg bs : Bytes) : Prop where
  /-- The header holds as much of the length as four octets do. -/
  header : Frame.announced bs = msg.length % 2 ^ 32
  /-- The reader goes on where the message would end if the header were right. -/
  left : ∀ rest, (Frame.decode l.maxMessageSize (bs ++ rest)).left (bs ++ rest) =
    msg.drop (msg.length % 2 ^ 32) ++ rest
  /-- The header is right exactly for a message that is short enough, -/
  right : Frame.announced bs = msg.length ↔ msg.length < 2 ^ 32
  /-- and just such a message is read back, -/
  read : ∀ rest, Frame.decode l.maxMessageSize (bs ++ rest) = .frame (.message msg) rest ↔
    msg.length < 2 ^ 32
  /-- and has the next frame behind it. -/
  next : ∀ rest, (Frame.decode l.maxMessageSize (bs ++ rest)).left (bs ++ rest) = rest ↔
    msg.length < 2 ^ 32

/-- **Every message within the limit** is announced in its header as far as four octets allow. -/
theorem ChannelLimits.announces {l : ChannelLimits} {msg : Bytes}
    (h : msg.length ≤ l.maxMessageSize) : l.Announces msg (Frame.message msg).toBytes := by
  have hleft (rest : Bytes) := Frame.left_decode_toBytes .message h rest
  have hheader : Frame.announced (Frame.message msg).toBytes = msg.length % 2 ^ 32 := by
    have hbegins := Frame.begins_toBytes (.message msg) []
    rw [List.append_nil] at hbegins
    exact hbegins.announced
  have hmod : msg.length % 2 ^ 32 = msg.length ↔ msg.length < 2 ^ 32 :=
    Nat.mod_eq_iff_lt (by decide)
  refine ⟨hheader, hleft, ?_, Frame.decode_toBytes_iff .message h, fun rest => ?_⟩
  · rw [hheader, hmod]
  · -- what is left is what follows, once nothing of the message is left
    have hdrop := hleft rest
    unfold Frame.message
    rw [hdrop, List.append_left_eq_self, List.drop_eq_nil_iff, ← hmod]
    exact ⟨(Nat.mod_le _ _).antisymm, Eq.ge⟩

namespace Bench

/-- **Lengths are announced modulo `2 ^ 32`.** Whatever passes the checks of the channel and of the
frame is announced in its header as far as four octets allow. All that an end ever writes are the
frames of such messages, among them every message that was sent with success, and a close frame at
most; if all of them are shorter than `2 ^ 32` octets, they are read back one by one. -/
theorem lengths_announced (l : ChannelLimits) (capacity : Nat) (s : Side) (moves : List Move) :
    (∀ msg bs, l.checkSize msg.length = .ok () →
      (Frame.message msg).encode l.maxMessageSize = .ok bs → l.Announces msg bs) ∧
    ∃ admitted farewell,
      (((Journal.alone s l capacity).run moves).carried s ++
        (((Journal.alone s l capacity).run moves).bench.endOf s).output =
          Desk.framed admitted ++ farewell) ∧
      (farewell = [] ∨ farewell = Frame.close.toBytes) ∧
      (∀ t msg, (t, .ok none) ∈ ((Journal.alone s l capacity).run moves).results s →
        ((Journal.alone s l capacity).run moves).job? s t = some (.send msg) →
        (t, msg) ∈ admitted) ∧
      (∀ a ∈ admitted, ((Journal.alone s l capacity).run moves).job? s a.1 = some (.send a.2) ∧
        l.checkSize a.2.length = .ok () ∧
        (Frame.message a.2).encode l.maxMessageSize = .ok (Frame.message a.2).toBytes ∧
        l.Announces a.2 (Frame.message a.2).toBytes) ∧
      ((∀ a ∈ admitted, a.2.length < 2 ^ 32) →
        Frame.drain l.maxMessageSize (Desk.framed admitted) =
          ⟨admitted.map fun a => Frame.message a.2, .ok []⟩) := by
  refine ⟨?through, ?_⟩
  case through =>
    intro msg bs _ hencode
    rw [Frame.encode] at hencode
    split at hencode
    · cases hencode
    · next hsize =>
        cases hencode
        exact ChannelLimits.announces (Nat.le_of_not_lt hsize)
  -- nothing is asked of who holds the pipes
  have hallowed : ∀ m ∈ moves, m.Allowed True True := by
    intro m _
    unfold Move.Allowed
    split <;> trivial
  obtain ⟨-, -, hsteps⟩ := Journal.steps_alone s l capacity hallowed
  generalize (Journal.alone s l capacity).run moves = j at hsteps ⊢
  obtain ⟨-, admitted, farewell, hledger, -⟩ := hsteps.accounted
  have hlimits : (j.desk s).fin.limits = l := hsteps.limits
  have hsize : ∀ a ∈ admitted, a.2.length ≤ l.maxMessageSize := fun a ha =>
    hlimits ▸ (hledger.jobs a ha).2
  refine ⟨admitted, farewell, hledger.octets, hledger.farewell.imp_right And.left,
    hledger.delivered, fun a ha => ?_, fun hshort => ?_⟩
  · have hnot := Nat.not_lt.mpr (hsize a ha)
    exact ⟨(hledger.jobs a ha).1, if_neg hnot, if_neg hnot, ChannelLimits.announces (hsize a ha)⟩
  · have hwritable : ∀ f ∈ admitted.map fun a => Frame.message a.2,
        f.Writable l.maxMessageSize := by
      intro f hf
      obtain ⟨a, ha, rfl⟩ := List.mem_map.mp hf
      exact ⟨rfl, hsize a ha, hshort a ha⟩
    have hdrain := Frame.drain_toBytes hwritable
    rw [List.map_map] at hdrain
    exact hdrain

/-- A message of `2 ^ 32` octets is let through by a channel with this limit. Its header announces
no octets at all, and no reader with the same limit reads it back. -/
theorem length_is_lost :
    let l : ChannelLimits := { maxMessageSize := 2 ^ 32 }
    let msg : Bytes := List.replicate (2 ^ 32) 0x61
    l.checkSize msg.length = .ok () ∧
      (Frame.message msg).encode l.maxMessageSize = .ok (Frame.message msg).toBytes ∧
      msg.length = 2 ^ 32 ∧ Frame.announced (Frame.message msg).toBytes = 0 ∧
      ∀ rest, Frame.decode l.maxMessageSize ((Frame.message msg).toBytes ++ rest) ≠
        .frame (.message msg) rest := by
  intro l msg
  have hlength : msg.length = 2 ^ 32 := List.length_replicate
  -- only the length of the message matters
  clear_value msg
  have hmax : msg.length ≤ l.maxMessageSize := hlength.le
  have hannounces := ChannelLimits.announces hmax
  refine ⟨if_neg (Nat.not_lt.mpr hmax), if_neg (Nat.not_lt.mpr hmax), hlength, ?_, fun rest => ?_⟩
  · rw [hannounces.header, hlength, Nat.mod_self]
  · rw [ne_eq, hannounces.read, hlength]
    exact Nat.lt_irrefl _

end Bench

end PeerRpc
