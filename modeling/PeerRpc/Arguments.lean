import PeerRpc.Error
import PeerRpc.Text.Utf8
import PeerRpc.Value.Reader
import PeerRpc.Value.Writer

/-!
# PeerRpc.Arguments -- arguments and results of calls

A caller and a handler hold typed data; a call carries plain data. `Datum` is data as a program
holds it, of any type that can be written down: integers of any size, numbers of two widths,
octet strings, characters, optional data, lists and maps with keys of any kind. `Datum.toValue`
finds its plain form, or says why there is none.

`intoArguments` does so for the arguments of a call, `respond` for the result of a handler, and
`argument` reads the argument at a place back, where an argument that was left out counts as null.
-/

namespace PeerRpc

/-- Data as a program holds it. -/
inductive Datum where
  | value (v : Value)
  | int (n : Int)
  | float (x : Binary64)
  | single (bits : UInt32)
  | bytes (bs : Bytes)
  | char (c : Char)
  | unit
  | none
  | some (d : Datum)
  | list (items : List Datum)
  | side (s : Side)
  | map (entries : List (Datum × Datum))

namespace Datum

/-- The text that data stands for as the key of a map. -/
def keyText : Datum → Except PlainError String
  | value (.string s) => .ok s
  | value (.bool b) => .ok (toString b)
  | value (.int n) => .ok (toString n.1)
  | value (.float x) => .ok (Layout.compact.text x.1)
  | int n => .ok (toString n)
  | float x => if x.isFinite then .ok (Layout.compact.text x) else .error .keyNotFinite
  | single bits =>
    if Binary.single.isFinite bits.toNat then
      .ok (Layout.compactSingle.pattern Binary.single bits.toNat)
    else .error .keyNotFinite
  | char c => .ok (String.ofList [c])
  | side s => .ok s.title
  | _ => .error .keyNotText

mutual

/-- The plain form of data. -/
def toValue : Datum → Except PlainError Value
  | value v => .ok v
  | int n =>
    match WireInt.ofInt? n with
    | .some w => .ok (.int w)
    | .none => .error .outOfRange
  | float x => .ok (.ofBinary64 x)
  | single bits => .ok (.ofBinary64 (Binary.single.widen bits.toNat))
  | bytes bs => .ok (.array (bs.map fun b => .int (.ofUInt8 b)))
  | char c => .ok (.string (String.ofList [c]))
  | unit => .ok .null
  | none => .ok .null
  | some d => d.toValue
  | list items => (itemsToValues items).map .array
  | side s => .ok (.string s.title)
  | map entries => (entriesToFields entries).map fun fields => .object (Keyed.ofList fields)

/-- The plain forms of items. -/
def itemsToValues : List Datum → Except PlainError (List Value)
  | [] => .ok []
  | d :: rest => do
    let v ← d.toValue
    let vs ← itemsToValues rest
    return v :: vs

/-- The keys and plain forms of the entries of a map, each key before its content. -/
def entriesToFields : List (Datum × Datum) → Except PlainError (List (String × Value))
  | [] => .ok []
  | (k, d) :: rest => do
    let key ← k.keyText
    let v ← d.toValue
    let fields ← entriesToFields rest
    return (key, v) :: fields

end

end Datum

/-- The arguments of a call. -/
def intoArguments (args : List Datum) : Except CallError (List Value) :=
  match args.mapM Datum.toValue with
  | .ok vs => .ok vs
  | .error cause => .error (.codec (.unwritable cause))

/-- The result of a handler. -/
def respond (d : Datum) : Except HandlerError Value :=
  match d.toValue with
  | .ok v => .ok v
  | .error cause => .error (.plain ("bad reply: " ++ cause.text))

/-- The argument at a place, as an inhabitant of a shape. -/
def argument (s : Shape) (args : List Value) (index : Nat) : Except HandlerError s.Carrier :=
  match s.ofValue (args[index]?.getD .null) with
  | .ok a => .ok a
  | .error cause => .error (.badArgument index cause)

/-- The result of a call, as an inhabitant of a shape. -/
def result (s : Shape) (v : Value) : Except CallError s.Carrier :=
  match s.ofValue v with
  | .ok a => .ok a
  | .error cause => .error (.codec (.unexpected cause))

end PeerRpc
