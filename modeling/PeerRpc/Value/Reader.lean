import PeerRpc.Message.Draft
import PeerRpc.Shape

/-!
# PeerRpc.Value.Reader -- plain data as typed data

`Shape.ofValue s v` reads a value as an inhabitant of the shape `s`, or says where the two differ.
Containers are read from left to right and objects in the order of their keys, so the first
difference is the one that is reported.

A field that a record does not have is skipped. An integer is a number too: where a number is
expected, it is rounded to the nearest one.
-/

namespace PeerRpc

/-- What a value is, for a reader that expected something else. -/
def Value.found : Value → Found
  | null => .unit
  | bool b => .bool b
  | int n => .int n.1
  | float x => .float x.1
  | string s => .string s
  | array _ => .sequence
  | object _ => .map

namespace ValueReader

/-- A reader of values. -/
abbrev Reader (α : Type) := Value → Except Mismatch α

/-- Refuses a value of the wrong type. -/
def refuse {α : Type} (v : Value) (expected : String) : Except Mismatch α :=
  .error (.wrongType v.found expected)

/-- Reads a condition. -/
def bool : Reader Bool
  | .bool b => .ok b
  | v => refuse v "a boolean"

/-- Reads an integer of a kind. -/
def int (k : IntKind) : Reader k.Range
  | .int n =>
    match k.ofInt? n.1 with
    | some i => .ok i
    | none => .error (.wrongValue (.int n.1) k.name)
  | v => refuse v k.name

/-- Reads a number. -/
def float : Reader Binary64
  | .float x => .ok x.1
  | .int n => .ok (.ofInt n.1)
  | v => refuse v "f64"

/-- Reads a text. -/
def string : Reader String
  | .string s => .ok s
  | v => refuse v "a string"

/-- Reads a character: a text of exactly one. -/
def char : Reader Char
  | .string s =>
    match s.toList with
    | [c] => .ok c
    | _ => .error (.wrongValue (.string s) "a character")
  | v => refuse v "a character"

/-- Reads null. -/
def unit : Reader Unit
  | .null => .ok ()
  | v => refuse v "unit"

/-- Reads null as nothing. -/
def option {α : Type} (item : Reader α) : Reader (Option α)
  | .null => .ok none
  | v => (item v).map some

/-- Reads an array. -/
def list {α : Type} (item : Reader α) : Reader (List α)
  | .array items => items.mapM item
  | v => refuse v "a sequence"

/-- Reads an array of two. -/
def pair {α β : Type} (first : Reader α) (second : Reader β) : Reader (α × β)
  | .array [] => .error (.wrongLength 0 "a tuple of size 2")
  | .array [v] => do
    let _ ← first v
    .error (.wrongLength 1 "a tuple of size 2")
  | .array (v :: w :: rest) => do
    let a ← first v
    let b ← second w
    if rest.isEmpty then return (a, b)
    else .error (.wrongLength (rest.length + 2) "fewer elements in array")
  | v => refuse v "a tuple of size 2"

/-- Reads an object as a map. -/
def map {α : Type} (item : Reader α) : Reader (Keyed α)
  | .object fields => do
    let entries ← fields.mapM fun (k, v) => return (k, ← item v)
    return Keyed.ofList entries
  | v => refuse v "a map"

/-- Reads one of several names, given as a text or as the only key of an object. -/
def tag : Reader (String × Option Value)
  | .string s => .ok (s, none)
  | .object [(k, v)] => .ok (k, some v)
  | .object _ => .error (.wrongValue .map "map with a single key")
  | v => refuse v "string or map"

/-- Reads one of a list of names that carry nothing else. -/
def named {α : Type} (all : List α) (name : α → String) : Reader α := fun v => do
  let (s, content) ← tag v
  match all.find? fun a => name a = s with
  | none => .error (.unknownVariant s (all.map name))
  | some a =>
    match content with
    | none => return a
    | some w => do
      unit w
      return a

/-- Reads a side. -/
def side : Reader Side := named [.main, .ext] Side.title

/-- Reads an error code. -/
def errorCode : Reader ErrorCode := named ErrorCode.all ErrorCode.name

/-- Reads the id of a service. -/
def proxyId : Reader ProxyId := fun v => (int .word32 v).map fun n => ⟨.ofNat n.1.toNat⟩

/-- Reads the id of a request. -/
def requestId : Reader RequestId := fun v => (int .word64 v).map fun n => ⟨.ofNat n.1.toNat⟩

/-- Reads any value. -/
def value : Reader Value := .ok

/-- Reads a field into the draft of a remote error. -/
def errorField (d : ErrorDraft) (f : ErrorField) (v : Value) : Except Mismatch ErrorDraft :=
  match f with
  | .code => (errorCode v).map fun x => { d with code := some x }
  | .message => (string v).map fun x => { d with message := some x }
  | .details => (option value v).map fun x => { d with details := some x }

/-- Reads a remote error, from an object or from an array of its fields. -/
def remoteError : Reader RemoteError
  | .object fields => do
    let d ← fields.foldlM (fun d (k, v) =>
      match ErrorField.ofName? k with
      | some f => errorField d f v
      | none => .ok d) ({} : ErrorDraft)
    d.finish
  | .array items => do
    let d ← (ErrorField.all.zip items).foldlM (fun d (f, v) => errorField d f v) ({} : ErrorDraft)
    if items.length < 3 then .error (.wrongLength items.length "struct RemoteError with 3 elements")
    else if 3 < items.length then .error (.wrongLength items.length "fewer elements in array")
    else d.finish
  | v => refuse v "struct RemoteError"

/-- Reads a field into the draft of a message. -/
def messageField (d : MessageDraft) (f : MessageField) (v : Value) :
    Except Mismatch MessageDraft :=
  match f with
  | .id => (requestId v).map fun x => { d with id := some x }
  | .proxy => (proxyId v).map fun x => { d with proxy := some x }
  | .method => (string v).map fun x => { d with method := some x }
  | .args => (list value v).map fun x => { d with args := some x }
  | .value => (value v).map fun x => { d with value := some x }
  | .error => (remoteError v).map fun x => { d with error := some x }

/-- Reads a message: an object whose only key is the kind and holds the fields. -/
def message : Reader Message := fun v => do
  let (s, content) ← tag v
  match MessageKind.ofName? s with
  | none => .error (.unknownVariant s (MessageKind.all.map MessageKind.name))
  | some kind =>
    match content with
    | some (.object fields) => do
      let d ← fields.foldlM (fun d (k, w) =>
        match kind.field? k with
        | some f => messageField d f w
        | none => .ok d) ({} : MessageDraft)
      d.finish kind
    | some w => refuse w "struct variant"
    | none => .error (.wrongType .unitVariant "struct variant")

end ValueReader

open ValueReader in
/-- Reads a value as an inhabitant of a shape. -/
def Shape.ofValue : (s : Shape) → Reader s.Carrier
  | .bool => ValueReader.bool
  | .int k => ValueReader.int k
  | .float => ValueReader.float
  | .char => ValueReader.char
  | .string => ValueReader.string
  | .unit => ValueReader.unit
  | .option s => ValueReader.option s.ofValue
  | .list s => ValueReader.list s.ofValue
  | .pair a b => ValueReader.pair a.ofValue b.ofValue
  | .map s => ValueReader.map s.ofValue
  | .value => ValueReader.value
  | .side => ValueReader.side
  | .proxyId => ValueReader.proxyId
  | .requestId => ValueReader.requestId
  | .errorCode => ValueReader.errorCode
  | .remoteError => ValueReader.remoteError
  | .message => ValueReader.message

end PeerRpc
