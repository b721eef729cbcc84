import PeerRpc.Text.Printable

/-!
# PeerRpc.Text.Quoted -- text between quotation marks

Diagnostics show text between double quotes. A quotation mark, a backslash, NUL, tab, line feed
and carriage return have an escape of two characters; any other character that is not printable
is written as its hexadecimal code point in braces; all else stands for itself.

`Quoted.escape` rewrites one character, `Quoted.text` a whole text with its marks. `Quoted.list`,
`Quoted.record` and `Quoted.option` put contents that are already shown together.
-/

namespace PeerRpc

namespace Quoted

/-- The lower-case hexadecimal digits of a number. -/
def hex (n : Nat) : String := String.ofList (Nat.toDigits 16 n)

/-- The lower-case hexadecimal digits of a number, filled with zeros to at least `width`. -/
def hexPadded (width n : Nat) : String :=
  let digits := Nat.toDigits 16 n
  String.ofList (List.replicate (width - digits.length) '0' ++ digits)

/-- A character as it stands between the quotation marks. -/
def escape (c : Char) : String :=
  if c = '"' then "\\\""
  else if c = '\\' then "\\\\"
  else if c = '\x00' then "\\0"
  else if c = '\t' then "\\t"
  else if c = '\n' then "\\n"
  else if c = '\r' then "\\r"
  else if isPrintable c then c.toString
  else "\\u\x7b" ++ hex c.toNat ++ "\x7d"

/-- A text between quotation marks. -/
def text (s : String) : String :=
  "\"" ++ String.join (s.toList.map escape) ++ "\""

/-- The texts of a list between square brackets, separated by a comma and a blank. -/
def list (items : List String) : String :=
  "[" ++ ", ".intercalate items ++ "]"

/-- A record: its name and its fields, each with its content already shown. A record that does not
show all of its fields is `cut`. -/
def record (name : String) (fields : List (String × String)) (cut : Bool) : String :=
  let shown := fields.map fun (field, content) => field ++ ": " ++ content
  name ++ " \x7b " ++ ", ".intercalate (shown ++ if cut then [".."] else []) ++ " \x7d"

/-- An optional content. -/
def option : Option String → String
  | none => "None"
  | some content => "Some(" ++ content ++ ")"

example : text "a\"b\\c\n" = "\"a\\\"b\\\\c\\n\"" := by decide +kernel

end Quoted

end PeerRpc
