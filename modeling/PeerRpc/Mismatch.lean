import PeerRpc.Float.Shortest
import PeerRpc.Text.Quoted

/-!
# PeerRpc.Mismatch -- data that does not have the expected shape

A reader that expects data of one shape and meets another answers with a `Mismatch`: the cause, not
its wording. `Mismatch.text` words it. Plain values and encoded items name what they met slightly
differently; a `Wording` record holds the two differences, and `Wording.plain` and
`Wording.encoded` are the two ways in use.
-/

namespace PeerRpc

/-- What a reader met. -/
inductive Found where
  | bool (b : Bool)
  | int (n : Int)
  | float (x : Binary64)
  | string (s : String)
  | bytes
  | unit
  | option
  | sequence
  | map
  | enumeration
  | unitVariant
  | other (what : String)

/-- How what a reader met is named. -/
structure Wording where
  /-- The name of null. -/
  unit : String
  /-- The layout of numbers. -/
  layout : Layout

namespace Wording

/-- The wording for plain values. -/
def plain : Wording := ⟨"null", .compact⟩

/-- The wording for encoded items. -/
def encoded : Wording := ⟨"unit value", .full⟩

end Wording

/-- The text of what a reader met. -/
def Found.text (w : Wording) : Found → String
  | bool b => "boolean `" ++ toString b ++ "`"
  | int n => "integer `" ++ toString n ++ "`"
  | float x => "floating point `" ++ w.layout.text x ++ "`"
  | string s => "string " ++ Quoted.text s
  | bytes => "byte array"
  | unit => w.unit
  | option => "Option value"
  | sequence => "sequence"
  | map => "map"
  | enumeration => "enum"
  | unitVariant => "unit variant"
  | other what => what

/-- Why data does not have the expected shape. -/
inductive Mismatch where
  /-- Data of another kind. -/
  | wrongType (found : Found) (expected : String)
  /-- Data of the right kind, but outside its range. -/
  | wrongValue (found : Found) (expected : String)
  /-- A sequence with another number of items. -/
  | wrongLength (found : Nat) (expected : String)
  /-- A name that is none of those allowed. -/
  | unknownVariant (found : String) (allowed : List String)
  /-- A record without one of its fields. -/
  | missingField (name : String)
  /-- A record with a field twice. -/
  | duplicateField (name : String)
  /-- Any other cause, in its own words. -/
  | other (text : String)

namespace Mismatch

/-- The names allowed in a place, as a phrase. -/
def oneOf : List String → String
  | [] => "there are no variants"
  | [a] => "expected `" ++ a ++ "`"
  | [a, b] => "expected `" ++ a ++ "` or `" ++ b ++ "`"
  | names => "expected one of " ++ ", ".intercalate (names.map fun a => "`" ++ a ++ "`")

/-- The text of a mismatch. -/
def text (w : Wording) : Mismatch → String
  | wrongType found expected => "invalid type: " ++ found.text w ++ ", expected " ++ expected
  | wrongValue found expected => "invalid value: " ++ found.text w ++ ", expected " ++ expected
  | wrongLength n expected => "invalid length " ++ toString n ++ ", expected " ++ expected
  | unknownVariant found allowed => "unknown variant `" ++ found ++ "`, " ++ oneOf allowed
  | missingField name => "missing field `" ++ name ++ "`"
  | duplicateField name => "duplicate field `" ++ name ++ "`"
  | other s => s

end Mismatch

end PeerRpc
