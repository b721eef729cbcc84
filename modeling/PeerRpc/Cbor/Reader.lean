import PeerRpc.Cbor.Cursor
import PeerRpc.Value.Reader

/-!
# PeerRpc.Cbor.Reader -- octets as typed data

`Shape.decode s bs` reads one item from the front of an octet string as an inhabitant of the shape
`s`; what follows the item is left alone. Containers are followed to a depth of `maxNesting`, which
every reader counts down as its first argument: a container that is met with nothing left is
refused. Tags in front of an item are skipped wherever one particular kind of item is expected.

Two limits belong to the form: names of fields, of variants, and the first key of an object have to
come in one piece of at most `maxName` octets, while any other text may be longer or in segments.
-/

namespace PeerRpc

namespace Cbor

/-- The depth to which containers are followed. -/
def maxNesting : Nat := 256

/-- The most octets of a name. -/
def maxName : Nat := 4096

namespace Reader

/-- Refuses an item with a cause that belongs to no particular place. -/
def fail {α : Type} (cause : Mismatch) : Except DecodeError α := .error (.mismatch none cause)

/-- What a head is, for a reader that expected something else. -/
def found : Head → Found
  | .positive n => .int n
  | .negative n => .int (if n < 2 ^ 63 then -1 - (n : Int) else 2 ^ 64 - 1 - (n : Int))
  | .bytes _ => .other "bytes"
  | .text _ => .other "string"
  | .array _ => .sequence
  | .map _ => .map
  | .tag _ => .other "tag"
  | .simple n =>
    if n = simpleFalse then .bool false
    else if n = simpleTrue then .bool true
    else if n = simpleNull then .other "null"
    else if n = simpleUndefined then .other "undefined"
    else .other "simple"
  | .float x => .float x
  | .stop => .other "break"

/-- Refuses a head. -/
def refuse {α : Type} (h : Head) (expected : String) : Except DecodeError α :=
  fail (.wrongType (found h) expected)

/-- The result of a check that knows no place. -/
def check {α : Type} : Except Mismatch α → Except DecodeError α
  | .ok a => .ok a
  | .error cause => fail cause

/-- Reads the next head that is not a tag, together with the offset where it starts. -/
def untaggedFrom : Nat → Reader (Nat × Head)
  | 0, _ => .error .endOfInput
  | fuel + 1, c => do
    let start := c.offset
    let (h, c) ← c.pull
    match h with
    | .tag _ => untaggedFrom fuel c
    | h => return ((start, h), c)

/-- Reads the next head that is not a tag, together with the offset where it starts. -/
def untagged : Reader (Nat × Head) := fun c => untaggedFrom (c.bound + 1) c

/-- Reads `n` octets of text whose head starts at `start`. -/
def shortText (start n : Nat) : Reader String := fun c => do
  let (bs, c) ← c.take n
  match Utf8.decode bs with
  | some s => return (s, c)
  | none => .error (.malformed start)

/-! ## Scalars -/

/-- Reads `n` octets of a big number in blocks of 16, given the octets in front of them without
leading zeros. -/
def bigSegment : (fuel n : Nat) → Bytes → Reader Bytes
  | 0, _, _, _ => .error .endOfInput
  | fuel + 1, n, acc, c =>
    if n = 0 then .ok (acc, c)
    else do
      let (bs, c) ← c.take (min n 16)
      let acc := (acc ++ bs).dropWhile (· = 0)
      if 16 < acc.length then fail (.other "bigint too large")
      else bigSegment fuel (n - min n 16) acc c

/-- Reads the big number whose head, with this length, has just been read. Zeros at its front do not
count towards its length. -/
def bigNumber (len : Option Nat) : Reader Nat := fun c => do
  let (bs, c) ← Cursor.segments (fun | .bytes len => some len | _ => none)
    (fun _ n acc => bigSegment (n / 16 + 2) n acc) (c.bound + 1) 0 [] (c.push (.bytes len))
  return (Bytes.ofBigEndian bs, c)

/-- Reads an integer as its sign and a number: `n`, or `-1 - n` if the sign is set. An integer is
one of the two number heads, or a tag two or three on an octet string; other tags are skipped. -/
def integerFrom : Nat → Reader (Bool × Nat)
  | 0, _ => .error .endOfInput
  | fuel + 1, c => do
    let (h, c) ← c.pull
    match h with
    | .positive n => return ((false, n), c)
    | .negative n => return ((true, n), c)
    | .tag n =>
      if n = 2 ∨ n = 3 then
        let (h, c) ← c.pull
        match h with
        | .bytes len => (bigNumber len c).map fun (m, c) => ((n = 3, m), c)
        | h => refuse h "bytes"
      else integerFrom fuel c
    | h => refuse h "integer"

/-- Reads an integer as its sign and a number. -/
def integer : Reader (Bool × Nat) := fun c => integerFrom (c.bound + 1) c

/-- Reads an integer of a kind. One that no 64 bits hold is too large before any other bound. -/
def int (k : IntKind) : Reader k.Range := fun c => do
  let ((negative, n), c) ← integer c
  let i : Int := if negative then -1 - (n : Int) else n
  if k.signed then
    if 2 ^ 63 ≤ n then fail (.other "integer too large")
  else
    if negative then fail (.other "unexpected negative integer")
    if 2 ^ 64 ≤ n then fail (.other "integer too large")
  match k.ofInt? i with
  | some i => return (i, c)
  | none => fail (.wrongValue (.int i) k.name)

/-- Reads a condition. -/
def bool : Reader Bool := fun c => do
  let ((start, h), c) ← untagged c
  match h with
  | .simple n =>
    if n = simpleFalse then return (false, c)
    else if n = simpleTrue then return (true, c)
    else .error (.mismatch (some start) (.other "expected bool"))
  | _ => .error (.mismatch (some start) (.other "expected bool"))

/-- Reads a number. -/
def float : Reader Binary64 := fun c => do
  let ((_, h), c) ← untagged c
  match h with
  | .float x => return (x, c)
  | h => refuse h "float"

/-- Reads a character: a text of exactly one. -/
def char : Reader Char := fun c => do
  let ((start, h), c) ← untagged c
  match h with
  | .text (some n) =>
    if n ≤ 4 then do
      let (s, c) ← shortText start n c
      match s.toList with
      | [x] => return (x, c)
      | _ => refuse h "char"
    else refuse h "char"
  | h => refuse h "char"

/-- Reads a text in one piece of limited length. -/
def name : Reader String := fun c => do
  let ((start, h), c) ← untagged c
  match h with
  | .text (some n) => if n ≤ maxName then shortText start n c else refuse h "str"
  | h => refuse h "str"

/-- Reads a text. -/
def string : Reader String := fun c => do
  let ((_, h), c) ← untagged c
  match h with
  | .text len => c.text len
  | h => refuse h "string"

/-- Reads the name of a field or a variant: a text or an octet string in one piece of limited
length. Octets that are not text are shown as well as can be. -/
def identifier : Reader String := fun c => do
  let ((start, h), c) ← untagged c
  match h with
  | .text (some n) => if n ≤ maxName then shortText start n c else refuse h "str or bytes"
  | .bytes (some n) =>
    if n ≤ maxName then do
      let (bs, c) ← c.take n
      return (Utf8.decodeLossy bs, c)
    else refuse h "str or bytes"
  | h => refuse h "str or bytes"

/-- Reads null, or what is undefined. -/
def unit : Reader Unit := fun c => do
  let ((_, h), c) ← untagged c
  match h with
  | .simple n => if n = simpleNull ∨ n = simpleUndefined then return ((), c) else refuse h "unit"
  | h => refuse h "unit"

/-- Reads null, or what is undefined, as nothing. -/
def option {α : Type} (item : Reader α) : Reader (Option α) := fun c => do
  let (h, c) ← c.pull
  if h = .simple simpleNull ∨ h = .simple simpleUndefined then return (none, c)
  else (item (c.push h)).map fun (a, c) => (some a, c)

/-! ## Containers -/

/-- Whether one more item follows in a container with this many left, and how many are left after
it. A container in parts ends at a `stop`. -/
def more (left : Option Nat) : Reader (Option (Option Nat)) := fun c =>
  match left with
  | some 0 => .ok (none, c)
  | some (n + 1) => .ok (some (some n), c)
  | none => do
    let (h, c) ← c.pull
    match h with
    | .stop => return (none, c)
    | h => return (some none, c.push h)

/-- Reads items to the end of a container, each changing the state. -/
def loop {α : Type} (item : α → Reader α) : (fuel : Nat) → (left : Option Nat) → α → Reader α
  | 0, _, _, _ => .error .endOfInput
  | fuel + 1, left, a, c => do
    match ← more left c with
    | (none, c) => return (a, c)
    | (some left, c) => do
      let (a, c) ← item a c
      loop item fuel left a c

/-- Reads items to the end of a container, each changing the state. -/
def foldItems {α : Type} (item : α → Reader α) (left : Option Nat) (a : α) : Reader α := fun c =>
  loop item (c.bound + 1) left a c

/-- Reads all items of a container. -/
def items {α : Type} (item : Reader α) (left : Option Nat) : Reader (List α) := fun c =>
  (foldItems (fun acc c => (item c).map fun (a, c) => (a :: acc, c)) left [] c).map
    fun (acc, c) => (acc.reverse, c)

/-- Counts one container off the nesting that is left. -/
def nested {α : Type} (inside : Nat → Reader α) : Nat → Reader α
  | 0, _ => .error .tooDeep
  | n + 1, c => inside n c

/-- Reads an array of items. The octets of an octet string count as integers. -/
def list {α : Type} (octet : UInt8 → Except Mismatch α) (item : Nat → Reader α) (nesting : Nat) :
    Reader (List α) := fun c => do
  let ((_, h), c) ← untagged c
  match h with
  | .array len => nested (fun n => items (item n) len) nesting c
  | .bytes len => do
    let (bs, c) ← c.bytes len
    return (← check (bs.mapM octet), c)
  | h => refuse h "array"

/-- Reads the first two items of an array; what follows them in the array is left unread. -/
def pair {α β : Type} (octets : UInt8 → Except Mismatch α) (octets' : UInt8 → Except Mismatch β)
    (first : Nat → Reader α) (second : Nat → Reader β) (nesting : Nat) : Reader (α × β) :=
  fun c => do
    let short {γ : Type} (n : Nat) : Except DecodeError γ :=
      fail (.wrongLength n "a tuple of size 2")
    let ((_, h), c) ← untagged c
    match h with
    | .array len =>
      nested (fun n c => do
        match ← more len c with
        | (none, _) => short 0
        | (some left, c) => do
          let (a, c) ← first n c
          match ← more left c with
          | (none, _) => short 1
          | (some _, c) => do
            let (b, c) ← second n c
            return ((a, b), c)) nesting c
    | .bytes len => do
      let (bs, c) ← c.bytes len
      match bs with
      | [] => short 0
      | [x] => do
        let _ ← check (octets x)
        short 1
      | x :: y :: _ => return ((← check (octets x), ← check (octets' y)), c)
    | h => refuse h "array"

/-- Reads a map from texts. -/
def map {α : Type} (item : Nat → Reader α) (nesting : Nat) : Reader (Keyed α) := fun c => do
  let ((_, h), c) ← untagged c
  match h with
  | .map len =>
    nested (fun n => foldItems (fun acc c => do
      let (k, c) ← string c
      let (a, c) ← item n c
      return (Keyed.insert k a acc, c)) len []) nesting c
  | h => refuse h "map"

/-! ## Items of any kind -/

/-- An item whose kind is not known beforehand. A container is only opened. -/
inductive Item where
  | bool (b : Bool)
  | int (n : Int)
  /-- An integer that was written in a form wider than 64 bits. -/
  | wideInt (n : Int)
  | float (x : Binary64)
  | string (s : String)
  | bytes
  | null
  | array (len : Option Nat)
  | map (len : Option Nat)
  | tagged

/-- Reads an item of any kind up to the inside of a container. A tag in front of an item makes it a
container of its own kind, except for the two that mark big numbers. -/
def anyItem (nesting : Nat) : Reader Item := fun c => do
  let (h, c) ← c.pull
  let start := (c.push h).offset
  match h with
  | .positive n => return (.int n, c)
  | .negative n =>
    if n < 2 ^ 63 then return (.int (-1 - (n : Int)), c) else return (.wideInt (-1 - (n : Int)), c)
  | .bytes (some n) =>
    if n ≤ maxName then do
      let (_, c) ← c.take n
      return (.bytes, c)
    else do
      let (_, c) ← c.bytes (some n)
      return (.bytes, c)
  | .bytes none => do
    let (_, c) ← c.bytes none
    return (.bytes, c)
  | .text (some n) =>
    if n ≤ maxName then do
      let (s, c) ← shortText start n c
      return (.string s, c)
    else do
      let (s, c) ← c.text (some n)
      return (.string s, c)
  | .text none => do
    let (s, c) ← c.text none
    return (.string s, c)
  | .array len => return (.array len, c)
  | .map len => return (.map len, c)
  | .float x => return (.float x, c)
  | .simple n =>
    if n = simpleFalse then return (.bool false, c)
    else if n = simpleTrue then return (.bool true, c)
    else if n = simpleNull ∨ n = simpleUndefined then return (.null, c)
    else refuse h "known simple value"
  | .stop => refuse h "non-break"
  | .tag t => do
    let other : Except DecodeError (Item × Cursor) := nested (fun _ c => .ok (.tagged, c)) nesting c
    if t = 2 ∨ t = 3 then
      let (h, c) ← c.pull
      match h with
      | .bytes (some n) =>
        if n ≤ 16 then do
          let (n, c) ← bigNumber (some n) c
          if t = 2 then return (.wideInt n, c)
          else if n < 2 ^ 127 then return (.wideInt (-1 - (n : Int)), c)
          else fail (.other "integer too large")
        else other
      | _ => other
    else other

/-- What an item is, for a reader that expected something else. -/
def Item.found : Item → Found
  | bool b => .bool b
  | int n => .int n
  | wideInt n => .other ("integer `" ++ toString n ++ "` as " ++ if n < 0 then "i128" else "u128")
  | float x => .float x
  | string s => .string s
  | bytes => .bytes
  | null => .option
  | array _ => .sequence
  | map _ => .map
  | tagged => .enumeration

/-- Refuses an item. -/
def refuseItem {α : Type} (i : Item) (expected : String) : Except DecodeError α :=
  fail (.wrongType i.found expected)

/-- An integer as a value. -/
def wireInt (n : Int) : Except DecodeError Value :=
  match WireInt.ofInt? n with
  | some w => .ok (.int w)
  | none => fail (.other "JSON number out of range")

/-- An item that is no container as a value. -/
def scalar : Item → Except DecodeError Value
  | .bool b => .ok (.bool b)
  | .int n => wireInt n
  | .wideInt n => wireInt n
  | .float x => .ok (.ofBinary64 x)
  | .string s => .ok (.string s)
  | .null => .ok .null
  | i => refuseItem i "any valid JSON value"

/-- Reads the fields of an object. The first key has to be a name; the others may be any text. -/
def objectFields (item : Reader Value) (left : Option Nat) : Reader (Keyed Value) := fun c => do
  match ← more left c with
  | (none, c) => return ([], c)
  | (some left, c) => do
    let (k, c) ← name c
    let (v, c) ← item c
    foldItems (fun acc c => do
      let (k, c) ← string c
      let (v, c) ← item c
      return (Keyed.insert k v acc, c)) left [(k, v)] c

/-- Reads a value. -/
def value : (nesting : Nat) → Reader Value
  | 0, c => do
    match ← anyItem 0 c with
    | (.array _, _) => .error .tooDeep
    | (.map _, _) => .error .tooDeep
    | (i, c) => return (← scalar i, c)
  | n + 1, c => do
    match ← anyItem (n + 1) c with
    | (.array len, c) => (items (value n) len c).map fun (vs, c) => (.array vs, c)
    | (.map len, c) => (objectFields (value n) len c).map fun (fields, c) => (.object fields, c)
    | (i, c) => return (← scalar i, c)

/-- Skips an item of any kind. -/
def skip : (nesting : Nat) → Reader Unit
  | 0, c => do
    match ← anyItem 0 c with
    | (.array _, _) => .error .tooDeep
    | (.map _, _) => .error .tooDeep
    | (.tagged, _) => fail (.other "expected tag")
    | (_, c) => return ((), c)
  | n + 1, c => do
    match ← anyItem (n + 1) c with
    | (.array len, c) => foldItems (fun _ => skip n) len () c
    | (.map len, c) =>
      foldItems (fun _ c => do
        let ((), c) ← skip n c
        skip n c) len () c
    | (.tagged, _) => fail (.other "expected tag")
    | (_, c) => return ((), c)

/-! ## Names and records -/

/-- Reads the name of a variant: a text, or the key of a map of one. What follows the key is left
unread. -/
def variant {α : Type} (content : String → Nat → Reader α) (nesting : Nat) : Reader α := fun c => do
  let ((_, h), c) ← untagged c
  let inside : Reader α :=
    nested (fun n c => do
      let (s, c) ← identifier c
      content s n c) nesting
  match h with
  | .map (some 1) => inside c
  | .text _ => inside (c.push h)
  | h => refuse h "enum"

/-- Reads one of a list of names that carry nothing else. -/
def named {α : Type} (all : List α) (title : α → String) (nesting : Nat) : Reader α :=
  variant (fun s _ c =>
    match all.find? fun a => title a = s with
    | some a => .ok (a, c)
    | none => fail (.unknownVariant s (all.map title))) nesting

/-- Reads a side. -/
def side (nesting : Nat) : Reader Side := named [.main, .ext] Side.title nesting

/-- Reads an error code. -/
def errorCode (nesting : Nat) : Reader ErrorCode := named ErrorCode.all ErrorCode.name nesting

/-- Reads the id of a service. -/
def proxyId : Reader ProxyId := fun c =>
  (int .word32 c).map fun (n, c) => (⟨.ofNat n.1.toNat⟩, c)

/-- Reads the id of a request. -/
def requestId : Reader RequestId := fun c =>
  (int .word64 c).map fun (n, c) => (⟨.ofNat n.1.toNat⟩, c)

/-- Reads the fields of a record. A field that the record does not have is skipped, and a field
that is there already is refused before its content is read. -/
def record {δ φ : Type} (field? : String → Option φ) (title : φ → String) (has : δ → φ → Bool)
    (content : Nat → δ → φ → Reader δ) (nesting : Nat) (left : Option Nat) (d : δ) : Reader δ :=
  foldItems (fun d c => do
    let (s, c) ← identifier c
    match field? s with
    | none => do
      let ((), c) ← skip nesting c
      return (d, c)
    | some f =>
      if has d f then fail (.duplicateField (title f)) else content nesting d f c) left d

/-- Reads a field into the draft of a remote error. -/
def errorField (nesting : Nat) (d : ErrorDraft) (f : ErrorField) : Reader ErrorDraft := fun c =>
  match f with
  | .code => (errorCode nesting c).map fun (x, c) => ({ d with code := some x }, c)
  | .message => (string c).map fun (x, c) => ({ d with message := some x }, c)
  | .details => (option (value nesting) c).map fun (x, c) => ({ d with details := some x }, c)

/-- Reads a remote error. -/
def remoteError (nesting : Nat) : Reader RemoteError := fun c => do
  let ((_, h), c) ← untagged c
  match h with
  | .map len =>
    nested (fun n c => do
      let (d, c) ← record ErrorField.ofName? ErrorField.name ErrorDraft.has errorField n len {} c
      return (← check d.finish, c)) nesting c
  | h => refuse h "map"

/-- Reads the arguments of a call. -/
def args (nesting : Nat) : Reader (List Value) :=
  list (fun b => .ok (.int (.ofUInt8 b))) value nesting

/-- Reads a field into the draft of a message. -/
def messageField (nesting : Nat) (d : MessageDraft) (f : MessageField) : Reader MessageDraft :=
  fun c =>
    match f with
    | .id => (requestId c).map fun (x, c) => ({ d with id := some x }, c)
    | .proxy => (proxyId c).map fun (x, c) => ({ d with proxy := some x }, c)
    | .method => (string c).map fun (x, c) => ({ d with method := some x }, c)
    | .args => (args nesting c).map fun (x, c) => ({ d with args := some x }, c)
    | .value => (value nesting c).map fun (x, c) => ({ d with value := some x }, c)
    | .error => (remoteError nesting c).map fun (x, c) => ({ d with error := some x }, c)

/-- Reads the first fields of a record by their places in an array; what follows them is left
unread. `count` fields have been read, `expected` words the whole record. -/
def positional (expected : String) (nesting : Nat) :
    (fields : List MessageField) → (count : Nat) → (left : Option Nat) → MessageDraft →
    Reader MessageDraft
  | [], _, _, d, c => .ok (d, c)
  | f :: fields, count, left, d, c => do
    match ← more left c with
    | (none, _) => fail (.wrongLength count expected)
    | (some left, c) => do
      let (d, c) ← messageField nesting d f c
      positional expected nesting fields (count + 1) left d c

/-- What the content of a message of some kind is called. -/
def describe (k : MessageKind) : String := "struct variant Message::" ++ k.title

/-- Reads the content of a message: a map of its fields, or an array of them. -/
def messageContent (kind : MessageKind) (nesting : Nat) : Reader Message := fun c => do
  match ← anyItem nesting c with
  | (.map len, c) =>
    nested (fun n c => do
      let (d, c) ← record kind.field? MessageField.name MessageDraft.has messageField n len {} c
      return (← check (d.finish kind), c)) nesting c
  | (.array len, c) =>
    nested (fun n c => do
      let count := kind.fields.length
      let expected := describe kind ++ " with " ++ toString count ++
        if count = 1 then " element" else " elements"
      let (d, c) ← positional expected n kind.fields 0 len {} c
      return (← check (d.finish kind), c)) nesting c
  | (i, _) => refuseItem i (describe kind)

/-- Reads a message: its kind and its content. -/
def message (nesting : Nat) : Reader Message :=
  variant (fun s n c =>
    match MessageKind.ofName? s with
    | some kind => messageContent kind n c
    | none => fail (.unknownVariant s (MessageKind.all.map MessageKind.name))) nesting

end Reader

end Cbor

open Cbor in
/-- Reads an inhabitant of a shape, following containers to a depth. -/
def Shape.reader : (s : Shape) → (nesting : Nat) → Reader s.Carrier
  | .bool, _ => Reader.bool
  | .int k, _ => Reader.int k
  | .float, _ => Reader.float
  | .char, _ => Reader.char
  | .string, _ => Reader.string
  | .unit, _ => Reader.unit
  | .option s, n => Reader.option (s.reader n)
  | .list s, n => Reader.list (fun b => s.ofValue (.int (.ofUInt8 b))) s.reader n
  | .pair a b, n =>
    Reader.pair (fun x => a.ofValue (.int (.ofUInt8 x))) (fun x => b.ofValue (.int (.ofUInt8 x)))
      a.reader b.reader n
  | .map s, n => Reader.map s.reader n
  | .value, n => Reader.value n
  | .side, n => Reader.side n
  | .proxyId, _ => Reader.proxyId
  | .requestId, _ => Reader.requestId
  | .errorCode, n => Reader.errorCode n
  | .remoteError, n => Reader.remoteError n
  | .message, n => Reader.message n

/-- Reads one item from the front of an octet string as an inhabitant of a shape. -/
def Shape.decode (s : Shape) (bs : Bytes) : Except Cbor.DecodeError s.Carrier :=
  (s.reader Cbor.maxNesting { rest := bs }).map Prod.fst

end PeerRpc
