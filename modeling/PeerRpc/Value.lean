import PeerRpc.Float.Binary
import PeerRpc.Keyed

/-!
# PeerRpc.Value -- plain data

Arguments, replies and error details are values: null, booleans, integers, finite floating point
numbers, texts, arrays and objects. Integers cover the signed and the unsigned 64-bit range at
once and are never mixed up with floats; `WireInt` and `FiniteFloat` carry these bounds in their
types.

An object is a list of fields in strictly ascending order of keys, as `Keyed.insert` builds it;
`Value.Ordered` says so of every object inside a value.
-/

namespace PeerRpc

/-- An integer of the signed or the unsigned 64-bit range. -/
def WireInt : Type := { n : Int // -2 ^ 63 ≤ n ∧ n < 2 ^ 64 }

namespace WireInt

instance : DecidableEq WireInt := inferInstanceAs (DecidableEq (Subtype _))

instance : Inhabited WireInt := ⟨⟨0, by decide⟩⟩

/-- The integer, if it lies in the range. -/
def ofInt? (n : Int) : Option WireInt :=
  if h : -2 ^ 63 ≤ n ∧ n < 2 ^ 64 then some ⟨n, h⟩ else none

/-- A natural number below `2 ^ 64`. -/
def ofNat (n : Nat) (h : n < 2 ^ 64) : WireInt := ⟨n, by omega⟩

/-- An octet. -/
def ofUInt8 (b : UInt8) : WireInt := ofNat b.toNat (by have := b.toNat_lt; omega)

/-- A 32-bit word. -/
def ofUInt32 (w : UInt32) : WireInt := ofNat w.toNat (by have := w.toNat_lt; omega)

/-- A 64-bit word. -/
def ofUInt64 (w : UInt64) : WireInt := ofNat w.toNat w.toNat_lt

end WireInt

/-- Plain data. -/
inductive Value where
  | null
  | bool (b : Bool)
  | int (n : WireInt)
  | float (x : FiniteFloat)
  | string (s : String)
  | array (items : List Value)
  | object (fields : List (String × Value))
  deriving Inhabited

namespace Value

/-- A number as a value: infinities and NaN have no value of their own and become null. -/
def ofBinary64 (x : Binary64) : Value :=
  match FiniteFloat.ofBinary64? x with
  | some y => float y
  | none => null

mutual

/-- How deep a value is nested: scalars and empty containers have depth one, and a container is one
deeper than its deepest part. -/
def depth : Value → Nat
  | array items => depthOfItems items + 1
  | object fields => depthOfFields fields + 1
  | _ => 1

/-- The greatest depth of the items, zero if there are none. -/
def depthOfItems : List Value → Nat
  | [] => 0
  | v :: rest => max (depth v) (depthOfItems rest)

/-- The greatest depth of the values of the fields, zero if there are none. -/
def depthOfFields : Keyed Value → Nat
  | [] => 0
  | (_, v) :: rest => max (depth v) (depthOfFields rest)

end

/-- The parts a container directly holds. -/
def children : Value → List Value
  | array items => items
  | object fields => fields.map Prod.snd
  | _ => []

mutual

/-- The number of values inside a value, itself included. -/
def size : Value → Nat
  | array items => sizeOfItems items + 1
  | object fields => sizeOfFields fields + 1
  | _ => 1

/-- The number of values inside the items. -/
def sizeOfItems : List Value → Nat
  | [] => 0
  | v :: rest => size v + sizeOfItems rest

/-- The number of values inside the fields. -/
def sizeOfFields : Keyed Value → Nat
  | [] => 0
  | (_, v) :: rest => size v + sizeOfFields rest

end

theorem sizeOfItems_append (xs ys : List Value) :
    sizeOfItems (xs ++ ys) = sizeOfItems xs + sizeOfItems ys := by
  induction xs with
  | nil => exact (Nat.zero_add _).symm
  | cons v xs ih => rw [List.cons_append, sizeOfItems, sizeOfItems, ih, Nat.add_assoc]

theorem sizeOfItems_reverse (items : List Value) :
    sizeOfItems items.reverse = sizeOfItems items := by
  induction items with
  | nil => rfl
  | cons v rest ih =>
      rw [List.reverse_cons, sizeOfItems_append, ih, Nat.add_comm]
      rfl

theorem sizeOfFields_eq (fields : Keyed Value) :
    sizeOfFields fields = sizeOfItems (fields.map Prod.snd) := by
  induction fields with
  | nil => rfl
  | cons p rest ih =>
      obtain ⟨k, v⟩ := p
      simp only [sizeOfFields, List.map_cons, sizeOfItems, ih]

/-- A value is one more than its parts. -/
theorem size_eq (v : Value) : v.size = sizeOfItems v.children + 1 := by
  cases v with
  | object fields =>
      rw [size, sizeOfFields_eq]
      rfl
  | _ => rfl

mutual

/-- Whether every object in the value has its keys in strictly ascending order, so that equal
objects are equal lists. -/
def Ordered : Value → Prop
  | array items => ItemsOrdered items
  | object fields => Keyed.Ascending fields ∧ FieldsOrdered fields
  | _ => True

/-- Every item is ordered. -/
def ItemsOrdered : List Value → Prop
  | [] => True
  | v :: rest => Ordered v ∧ ItemsOrdered rest

/-- The value of every field is ordered. -/
def FieldsOrdered : Keyed Value → Prop
  | [] => True
  | (_, v) :: rest => Ordered v ∧ FieldsOrdered rest

end

end Value

end PeerRpc
