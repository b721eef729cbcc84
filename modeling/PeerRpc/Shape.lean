import PeerRpc.Message

/-!
# PeerRpc.Shape -- the types that cross the wire

A `Shape` names a type that can be an argument, a result or a message: booleans, bounded integers,
numbers, characters, texts, the unit, options, lists, pairs and maps of these, and the library's own
types. `Shape.Carrier` is the type of its inhabitants. Readers and writers are defined by recursion
on shapes, so that a statement about typed calls quantifies over all of them at once.
-/

namespace PeerRpc

/-- The width of a bounded integer in bits. -/
inductive Width where
  | w8
  | w16
  | w32
  | w64
  deriving DecidableEq

/-- The number of bits. -/
def Width.bits : Width → Nat
  | w8 => 8
  | w16 => 16
  | w32 => 32
  | w64 => 64

/-- A kind of bounded integers. -/
structure IntKind where
  signed : Bool
  width : Width
  deriving DecidableEq

namespace IntKind

/-- The least integer of a kind. -/
def least (k : IntKind) : Int := if k.signed then -2 ^ (k.width.bits - 1) else 0

/-- The greatest integer of a kind. -/
def greatest (k : IntKind) : Int :=
  if k.signed then 2 ^ (k.width.bits - 1) - 1 else 2 ^ k.width.bits - 1

/-- The name of a kind in diagnostics. -/
def name (k : IntKind) : String := (if k.signed then "i" else "u") ++ toString k.width.bits

/-- The integers of a kind. -/
def Range (k : IntKind) : Type := { n : Int // k.least ≤ n ∧ n ≤ k.greatest }

/-- The integer, if the kind has it. -/
def ofInt? (k : IntKind) (n : Int) : Option k.Range :=
  if h : k.least ≤ n ∧ n ≤ k.greatest then some ⟨n, h⟩ else none

theorem least_ge (k : IntKind) : -2 ^ 63 ≤ k.least := by
  rcases k with ⟨_ | _, _ | _ | _ | _⟩ <;> decide

theorem greatest_lt (k : IntKind) : k.greatest < 2 ^ 64 := by
  rcases k with ⟨_ | _, _ | _ | _ | _⟩ <;> decide

/-- An integer of a kind as plain data. -/
def Range.toWireInt {k : IntKind} (n : k.Range) : WireInt :=
  ⟨n.1, Int.le_trans k.least_ge n.2.1, Int.lt_of_le_of_lt n.2.2 k.greatest_lt⟩

/-- The 64-bit signed integers. -/
def int64 : IntKind := ⟨true, .w64⟩

/-- The 64-bit words. -/
def word64 : IntKind := ⟨false, .w64⟩

/-- The 32-bit words. -/
def word32 : IntKind := ⟨false, .w32⟩

/-- The 16-bit words. -/
def word16 : IntKind := ⟨false, .w16⟩

/-- The 8-bit words. -/
def word8 : IntKind := ⟨false, .w8⟩

end IntKind

/-- A type that crosses the wire. -/
inductive Shape where
  | bool
  | int (k : IntKind)
  | float
  | char
  | string
  | unit
  | option (s : Shape)
  | list (s : Shape)
  | pair (a b : Shape)
  | map (s : Shape)
  | value
  | side
  | proxyId
  | requestId
  | errorCode
  | remoteError
  | message
  deriving DecidableEq

/-- The inhabitants of a shape. A map is a list in ascending order of its keys. -/
def Shape.Carrier : Shape → Type
  | bool => Bool
  | int k => k.Range
  | float => Binary64
  | char => Char
  | string => String
  | unit => Unit
  | option s => Option s.Carrier
  | list s => List s.Carrier
  | pair a b => a.Carrier × b.Carrier
  | map s => Keyed s.Carrier
  | value => Value
  | side => Side
  | proxyId => ProxyId
  | requestId => RequestId
  | errorCode => ErrorCode
  | remoteError => RemoteError
  | message => Message

end PeerRpc
