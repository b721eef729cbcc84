import PeerRpc.Bytes

/-!
# PeerRpc.Text.Utf8 -- text as octets

Text travels as UTF-8. `Utf8.encode` and `Utf8.decode` are the two directions, and
`decode_encode` says that no text is lost. Two readers serve callers that cannot demand a whole
valid octet string at once: `decodeAhead` accepts an octet string that stops in the middle of a
character and hands back the unfinished octets, and `decodeLossy` replaces what is not text.
-/

namespace PeerRpc

namespace Utf8

/-- The octets of a text. -/
def encode (s : String) : Bytes := s.toUTF8.data.toList

/-- The text that an octet string spells, or nothing if it spells none. -/
def decode (bs : Bytes) : Option String := String.fromUTF8? ⟨bs.toArray⟩

theorem decode_encode (s : String) : decode (encode s) = some s := by
  have h : (⟨s.toUTF8.data.toList.toArray⟩ : ByteArray) = s.toByteArray := by
    simp [String.toUTF8]
  unfold decode encode
  rw [h, String.fromUTF8?, dif_pos s.isValidUTF8]
  rfl

theorem encode_of_decode {bs : Bytes} {s : String} (h : decode bs = some s) : encode s = bs := by
  unfold decode String.fromUTF8? at h
  split at h
  · obtain rfl := Option.some.inj h
    simp [encode, String.toUTF8, String.fromUTF8]
  · simp at h

/-- The longest text at the front of an octet string whose remaining octets are too few to be
more than one unfinished character, together with those octets. -/
def decodeAhead (bs : Bytes) : Option (String × Bytes) :=
  go [0, 1, 2, 3]
where
  /-- The first of the given cuts that leaves text. -/
  go : List Nat → Option (String × Bytes)
    | [] => none
    | cut :: cuts =>
      if bs.length < cut then none
      else match decode (bs.take (bs.length - cut)) with
        | some s => some (s, bs.drop (bs.length - cut))
        | none => go cuts

/-- The ranges that the octets after a leading octet must lie in, one range for each, or nothing
if no character starts with this octet. -/
def tailRanges (lead : UInt8) : Option (List (UInt8 × UInt8)) :=
  if lead ≤ 0x7f then some []
  else if lead < 0xc2 then none
  else if lead ≤ 0xdf then some [(0x80, 0xbf)]
  else if lead = 0xe0 then some [(0xa0, 0xbf), (0x80, 0xbf)]
  else if lead = 0xed then some [(0x80, 0x9f), (0x80, 0xbf)]
  else if lead ≤ 0xef then some [(0x80, 0xbf), (0x80, 0xbf)]
  else if lead = 0xf0 then some [(0x90, 0xbf), (0x80, 0xbf), (0x80, 0xbf)]
  else if lead ≤ 0xf3 then some [(0x80, 0xbf), (0x80, 0xbf), (0x80, 0xbf)]
  else if lead = 0xf4 then some [(0x80, 0x8f), (0x80, 0xbf), (0x80, 0xbf)]
  else none

/-- How many of the octets fit their ranges before the first that does not. -/
def fitting : List (UInt8 × UInt8) → Bytes → Nat
  | (lo, hi) :: ranges, b :: bs => if lo ≤ b ∧ b ≤ hi then fitting ranges bs + 1 else 0
  | _, _ => 0

/-- The text of an octet string in which each longest start of a character that is not completed
is replaced by U+FFFD. -/
def decodeLossy (bs : Bytes) : String :=
  String.ofList (go bs.length bs)
where
  /-- The characters, given a bound on how many there can be. -/
  go : Nat → Bytes → List Char
    | 0, _ => []
    | _, [] => []
    | n + 1, lead :: rest =>
      match tailRanges lead with
      | none => '\ufffd' :: go n rest
      | some ranges =>
        let k := fitting ranges rest
        let whole := if k = ranges.length then decode (lead :: rest.take k) else none
        ((whole.map String.toList).getD ['\ufffd']) ++ go n (rest.drop k)

end Utf8

end PeerRpc
