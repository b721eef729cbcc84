import PeerRpc.Cbor.Reader
import PeerRpc.Cbor.Writer
import PeerRpc.Error

/-!
# PeerRpc.Codec -- messages as octets

`encodeMessage` refuses a message with a payload that is nested deeper than `maxDepth`, because the
other side could not read it back and the call would never be answered; every other message is
written. `withinDepth` decides this with a list of values still to be looked at, so that the depth
of a value never becomes a depth of recursion. `decodeMessage` reads the first item of an octet
string and ignores what follows.
-/

namespace PeerRpc

namespace Codec

/-- The deepest nesting of a payload that is sent: well below what a reader follows, which leaves
room for the message around it. -/
def maxDepth : Nat := 128

/-- What a look at the values still to be looked at comes to. -/
inductive Look where
  /-- There are none left. -/
  | finished
  /-- The next value is nested too deep. -/
  | tooDeep
  /-- These are left. -/
  | goOn (todo : List (Value × Nat))

/-- Looks at the next value. A value stands with its own depth, one for a payload itself. Its parts
come next, the last of them first. -/
def look : List (Value × Nat) → Look
  | [] => .finished
  | (v, depth) :: rest =>
    if maxDepth < depth then .tooDeep
    else .goOn ((v.children.map fun w => (w, depth + 1)).reverse ++ rest)

/-- The number of values that are still to be looked at, those inside the others included. -/
def remaining (todo : List (Value × Nat)) : Nat := Value.sizeOfItems (todo.map Prod.fst)

/-- **A look leaves one value less.** -/
theorem remaining_look {todo todo' : List (Value × Nat)} (h : look todo = .goOn todo') :
    remaining todo = remaining todo' + 1 := by
  cases todo with
  | nil => cases h
  | cons p rest =>
      obtain ⟨v, depth⟩ := p
      rw [look] at h
      split at h
      · cases h
      · cases h
        have hparts : ((v.children.map fun w => (w, depth + 1)).map Prod.fst) = v.children := by
          rw [List.map_map]
          exact List.map_id' _
        rw [remaining, remaining, List.map_append, List.map_reverse, hparts, List.map_cons,
          Value.sizeOfItems_append, Value.sizeOfItems_reverse, Value.sizeOfItems, v.size_eq]
        omega

/-- Whether no value that is still to be looked at is nested too deep. -/
def withinDepthFrom (todo : List (Value × Nat)) : Bool :=
  match _h : look todo with
  | .finished => true
  | .tooDeep => false
  | .goOn todo' => withinDepthFrom todo'
termination_by remaining todo
decreasing_by
  rw [remaining_look _h]
  exact Nat.lt_succ_self _

/-- Whether a value is nested no deeper than `maxDepth`. -/
def withinDepth (v : Value) : Bool := withinDepthFrom [(v, 1)]

/-- A message as octets, unless a payload is nested too deep. -/
def encodeMessage (m : Message) : Except CodecError Bytes :=
  if m.payloads.all withinDepth then .ok (Cbor.encodeMessage m)
  else .error (.nestingTooDeep maxDepth)

/-- The first item of an octet string as an inhabitant of a shape. -/
def decode (s : Shape) (bs : Bytes) : Except CodecError s.Carrier :=
  match s.decode bs with
  | .ok a => .ok a
  | .error cause => .error (.undecodable cause)

/-- The first item of an octet string as a message. -/
def decodeMessage (bs : Bytes) : Except CodecError Message := decode .message bs

end Codec

end PeerRpc
