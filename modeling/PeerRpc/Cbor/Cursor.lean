import PeerRpc.Cbor.Head
import PeerRpc.Mismatch
import PeerRpc.Text.Utf8

/-!
# PeerRpc.Cbor.Cursor -- a position in encoded data

A cursor stands between two heads of an octet string. `pull` reads the next head; `push` takes a
head back, so that it is the next one again. The cursor counts the octets it has passed, because a
malformed item is reported by where it starts; a head that was taken back counts with the length of
its shortest form, whatever form it had.

Strings may come in segments. `segments` collects them; segments of text are checked in blocks as
they arrive, so of a malformed text that is also cut short, the fault in the first block is seen.
-/

namespace PeerRpc

namespace Cbor

/-- Why encoded data cannot be read. -/
inductive DecodeError where
  /-- The data ends inside an item. -/
  | endOfInput
  /-- The item that starts at this offset is malformed. -/
  | malformed (offset : Nat)
  /-- The data is well formed but not of the expected shape. -/
  | mismatch (offset : Option Nat) (cause : Mismatch)
  /-- Containers are nested deeper than a reader follows. -/
  | tooDeep

namespace DecodeError

/-- The text of an error. -/
def text : DecodeError → String
  | endOfInput =>
    "Io(Error \x7b kind: UnexpectedEof, message: \"failed to fill whole buffer\" \x7d)"
  | malformed offset => "Syntax(" ++ toString offset ++ ")"
  | mismatch offset cause =>
    let place := match offset with
      | none => "None"
      | some n => "Some(" ++ toString n ++ ")"
    "Semantic(" ++ place ++ ", " ++ Quoted.text (cause.text .encoded) ++ ")"
  | tooDeep => "RecursionLimitExceeded"

end DecodeError

/-- A position in encoded data. -/
structure Cursor where
  /-- The octets that lie ahead. -/
  rest : Bytes
  /-- How many octets have been passed. -/
  offset : Nat := 0
  /-- A head that was taken back. -/
  held : Option Head := none
  /-- A bound on the number of items ahead, for loops. -/
  bound : Nat := rest.length + 1

/-- A reader of encoded data. -/
abbrev Reader (α : Type) := Cursor → Except DecodeError (α × Cursor)

namespace Cursor

/-- Reads the next `n` octets. -/
def take (n : Nat) : Reader Bytes := fun c =>
  let bs := c.rest.take n
  if bs.length < n then .error .endOfInput
  else .ok (bs, { c with rest := c.rest.drop n, offset := c.offset + n })

/-- The head of a major type from zero to six with its argument; only strings and containers may
lack one. -/
def plainHead (offset major : Nat) (argument : Option Nat) : Except DecodeError Head :=
  match major, argument with
  | 0, some n => .ok (.positive n)
  | 1, some n => .ok (.negative n)
  | 2, len => .ok (.bytes len)
  | 3, len => .ok (.text len)
  | 4, len => .ok (.array len)
  | 5, len => .ok (.map len)
  | 6, some n => .ok (.tag n)
  | _, _ => .error (.malformed offset)

/-- Reads the next head. -/
def pull : Reader Head := fun c =>
  match c.held with
  | some h => .ok (h, { c with held := none, offset := c.offset + h.size })
  | none =>
    match c.rest with
    | [] => .error .endOfInput
    | lead :: rest => do
      let start := c.offset
      let major := lead.toNat / 32
      let minor := lead.toNat % 32
      let c := { c with rest := rest, offset := start + 1 }
      if minor < 24 then
        let h ← if major = 7 then pure (Head.simple minor) else plainHead start major (some minor)
        return (h, c)
      else if minor < 28 then
        let (bs, c) ← take (2 ^ (minor - 24)) c
        let n := Bytes.ofBigEndian bs
        let h ←
          if major = 7 then
            match minor with
            | 24 => pure (Head.simple n)
            | 25 => pure (Head.float (Binary.half.widen n))
            | 26 => pure (Head.float (Binary.single.widen n))
            | _ => pure (Head.float ⟨.ofNat n⟩)
          else plainHead start major (some n)
        return (h, c)
      else if minor = 31 then
        let h ← if major = 7 then pure Head.stop else plainHead start major none
        return (h, c)
      else .error (.malformed start)

/-- Takes a head back. -/
def push (h : Head) (c : Cursor) : Cursor :=
  { c with held := some h, offset := c.offset - h.size }

/-- The most octets of a text that are checked at once. -/
def block : Nat := 4096

/-- Reads a segment of `n` octets of text that starts at `start`. The octets of an unfinished
character, `carried`, wait for the next block. -/
def textSegment (start : Nat) : (fuel n : Nat) → (carried : Bytes) → (acc : String) → Reader String
  | 0, _, _, _, _ => .error (.malformed start)
  | fuel + 1, n, carried, acc, c =>
    if n = 0 then
      if carried.isEmpty then .ok (acc, c) else .error (.malformed start)
    else do
      let count := min n (block - carried.length)
      let (bs, c) ← take count c
      match Utf8.decodeAhead (carried ++ bs) with
      | none => .error (.malformed start)
      | some (s, carried) => textSegment start fuel (n - count) carried (acc ++ s) c

/-- Reads a string of one kind of segments until it ends. `nested` counts the strings in parts that
are open; `segment` reads the content of one segment, given where its head starts. -/
def segments {α : Type} (isPart : Head → Option (Option Nat)) (segment : Nat → Nat → α → Reader α) :
    (fuel nested : Nat) → α → Reader α
  | 0, _, _, _ => .error .endOfInput
  | fuel + 1, nested, acc, c => do
    let start := c.offset
    let (h, c) ← pull c
    match h, isPart h with
    | .stop, _ =>
      if nested ≤ 1 then return (acc, c) else segments isPart segment fuel (nested - 1) acc c
    | _, some none => segments isPart segment fuel (nested + 1) acc c
    | _, some (some n) => do
      let (acc, c) ← segment start n acc c
      if nested = 0 then return (acc, c) else segments isPart segment fuel nested acc c
    | _, none => .error (.malformed start)

/-- Reads the text whose head, with this length, has just been read. -/
def text (len : Option Nat) : Reader String := fun c =>
  segments (fun | .text len => some len | _ => none)
    (fun start n acc => textSegment start (n + 1) n [] acc) (c.bound + 1) 0 "" (push (.text len) c)

/-- Reads the octet string whose head, with this length, has just been read. The parts are
gathered in reverse. -/
def bytes (len : Option Nat) : Reader Bytes := fun c => do
  let (parts, c) ← segments (fun | .bytes len => some len | _ => none)
    (fun _ n acc c => (take n c).map fun (bs, c) => (bs :: acc, c)) (c.bound + 1) 0 []
    (push (.bytes len) c)
  return (parts.reverse.flatten, c)

end Cursor

end Cbor

end PeerRpc
