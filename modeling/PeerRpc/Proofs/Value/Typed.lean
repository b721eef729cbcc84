import Mathlib.Data.List.Forall2
import Mathlib.Data.List.Induction
import PeerRpc.Arguments
import PeerRpc.Proofs.Cbor.Values

/-!
# PeerRpc.Proofs.Value.Typed -- typed data and its plain form

A program holds an inhabitant of a shape as data of its own: a map, for one, lists its entries in
any order (`Shape.HeldAs`). Whatever it is held as, the inhabitant has one plain form, the one that
`Shape.toValue` gives (`Shape.toValue_of_heldAs`), and from this the same inhabitant is read back
(`Shape.ofValue_toValue`). So nothing is lost between the two ends of a call as far as types go.

Not every inhabitant survives, and `Shape.Fits` says which do. A number has to be finite, because
infinities and NaN are sent as null, and an optional inhabitant has to be of a type that null is not
read as (`Shape.takesNull`), because null also stands for the absent one.
-/

namespace PeerRpc

variable {α β : Type}

/-- Items are read one after the other, if each of them can be. -/
theorem mapM_map_eq_ok {ε γ : Type} {f : β → Except ε γ} {g : α → β} {h : α → γ} {xs : List α}
    (hf : ∀ x ∈ xs, f (g x) = .ok (h x)) : (xs.map g).mapM f = .ok (xs.map h) := by
  induction xs with
  | nil => rfl
  | cons x xs ih =>
      rw [List.map_cons, List.mapM_cons, hf x List.mem_cons_self,
        ih fun y hy => hf y (List.mem_cons_of_mem x hy)]
      rfl

namespace Keyed

/-- Other contents under the same keys. -/
theorem Ascending.map {entries : Keyed α} (h : Ascending entries) (f : α → β) :
    Ascending (entries.map fun e => (e.1, f e.2)) := by
  unfold Ascending
  rw [List.map_map]
  exact h

/-- An entry with a new key is inserted somewhere. -/
theorem perm_insert {key : String} {a : α} {entries : Keyed α}
    (h : key ∉ entries.map Prod.fst) : (insert key a entries).Perm ((key, a) :: entries) := by
  induction entries with
  | nil => exact .refl _
  | cons e rest ih =>
      obtain ⟨k, b⟩ := e
      obtain ⟨hk, hrest⟩ : key ≠ k ∧ key ∉ rest.map Prod.fst := by simpa using h
      rw [insert, if_neg hk]
      split
      · exact .refl _
      · exact ((ih hrest).cons _).trans (.swap _ _ _)

/-- Entries with different keys all find their places. -/
theorem perm_ofList {entries : List (String × α)} (h : (entries.map Prod.fst).Nodup) :
    (ofList entries).Perm entries := by
  induction entries using List.reverseRecOn with
  | nil => exact .refl _
  | append_singleton entries e ih =>
      rw [List.map_append, List.nodup_append] at h
      obtain ⟨hnodup, -, hnew⟩ := h
      have hperm := ih hnodup
      have hlast : ofList (entries ++ [e]) = insert e.1 e.2 (ofList entries) := by
        simp only [ofList, List.foldl_append, List.foldl_cons, List.foldl_nil]
      have hfresh : e.1 ∉ (ofList entries).map Prod.fst := fun hmem =>
        hnew e.1 ((hperm.map Prod.fst).mem_iff.mp hmem) e.1 List.mem_cons_self rfl
      rw [hlast]
      exact (perm_insert hfresh).trans ((hperm.cons e).trans (List.perm_append_singleton e _).symm)

/-- **The order in which entries come does not matter.** -/
theorem ofList_of_perm {entries entries' : List (String × α)} (hperm : entries'.Perm entries)
    (h : Ascending entries) : ofList entries' = entries := by
  have hlt : entries.Pairwise fun e e' => e.1 < e'.1 := List.pairwise_map.mp h
  have hnodup : (entries'.map Prod.fst).Nodup :=
    (hperm.map Prod.fst).nodup_iff.mpr (h.imp fun hk => String.ne_of_lt hk)
  refine ((perm_ofList hnodup).trans hperm).eq_of_pairwise (fun e e' _ _ hee' he'e => ?_)
    (List.pairwise_map.mp (ascending_ofList entries')) hlt
  exact absurd he'e (String.lt_asymm hee')

end Keyed

/-! ## Containers in plain form -/

namespace Value

theorem ofBinary64_of_finite {x : Binary64} (h : x.isFinite = true) :
    Value.ofBinary64 x = .float ⟨x, h⟩ := by
  have hfinite : FiniteFloat.ofBinary64? x = some ⟨x, h⟩ := dif_pos h
  simp only [Value.ofBinary64, hfinite]

theorem itemsOrdered_map {f : α → Value} {items : List α} (h : ∀ a ∈ items, (f a).Ordered) :
    ItemsOrdered (items.map f) := by
  induction items with
  | nil => trivial
  | cons a rest ih =>
      exact ⟨h a List.mem_cons_self, ih fun b hb => h b (List.mem_cons_of_mem a hb)⟩

theorem fieldsOrdered_map {f : α → Value} {entries : Keyed α} (h : ∀ e ∈ entries, (f e.2).Ordered) :
    FieldsOrdered (entries.map fun e => (e.1, f e.2)) := by
  induction entries with
  | nil => trivial
  | cons e rest ih =>
      exact ⟨h e List.mem_cons_self, ih fun e' he' => h e' (List.mem_cons_of_mem e he')⟩

/-- The fields of an object, put in order from a map that is in order. -/
theorem ordered_object {f : α → Value} {entries : Keyed α} (hasc : Keyed.Ascending entries)
    (h : ∀ e ∈ entries, (f e.2).Ordered) :
    (object (Keyed.ofList (entries.map fun e => (e.1, f e.2)))).Ordered := by
  rw [Keyed.ofList_of_ascending (hasc.map f)]
  exact ⟨hasc.map f, fieldsOrdered_map h⟩

end Value

namespace ValueReader

/-- What is not null is read as it would be if it could not be absent. -/
theorem option_of_ne_null {item : Reader α} {v : Value} (h : v ≠ .null) :
    option item v = (item v).map some := by
  cases v with
  | null => exact absurd rfl h
  | _ => rfl

theorem list_map {item : Reader α} {f : α → Value} {items : List α}
    (h : ∀ a ∈ items, item (f a) = .ok a) : list item (.array (items.map f)) = .ok items := by
  have hitems : (items.map f).mapM item = .ok (items.map id) := mapM_map_eq_ok h
  rw [list, hitems, List.map_id]

theorem pair_of_eq_ok {first : Reader α} {second : Reader β} {a : α} {b : β} {v w : Value}
    (ha : first v = .ok a) (hb : second w = .ok b) : pair first second (.array [v, w]) = .ok (a, b) := by
  rw [pair, ha, hb]
  rfl

theorem map_object {item : Reader α} {f : α → Value} {entries : Keyed α}
    (hasc : Keyed.Ascending entries) (h : ∀ e ∈ entries, item (f e.2) = .ok e.2) :
    map item (.object (Keyed.ofList (entries.map fun e => (e.1, f e.2)))) = .ok entries := by
  rw [Keyed.ofList_of_ascending (hasc.map f), map, mapM_map_eq_ok (h := id), List.map_id]
  · show Except.ok (Keyed.ofList entries) = .ok entries
    rw [Keyed.ofList_of_ascending hasc]
  · intro e he
    dsimp only
    rw [h e he]
    rfl

end ValueReader

namespace Datum

/-- The plain form of a list. -/
theorem toValue_list {f : α → Value} {items : List α} {ds : List Datum}
    (h : List.Forall₂ (fun a d => d.toValue = .ok (f a)) items ds) :
    (list ds).toValue = .ok (.array (items.map f)) := by
  have hitems : itemsToValues ds = .ok (items.map f) := by
    induction h with
    | nil => rfl
    | cons hd _ ih =>
        rw [itemsToValues, hd, ih]
        rfl
  rw [toValue, hitems]
  rfl

/-- The plain form of a map with its entries in any order. -/
theorem toValue_map {f : α → Value} {entries entries' : Keyed α} {ds : List (Datum × Datum)}
    (hasc : Keyed.Ascending entries) (hperm : entries'.Perm entries)
    (h : List.Forall₂ (fun e d => d.1.keyText = .ok e.1 ∧ d.2.toValue = .ok (f e.2)) entries' ds) :
    (map ds).toValue = .ok (.object (Keyed.ofList (entries.map fun e => (e.1, f e.2)))) := by
  have hfields : entriesToFields ds = .ok (entries'.map fun e => (e.1, f e.2)) := by
    clear hperm
    induction h with
    | nil => rfl
    | cons hd _ ih =>
        rw [entriesToFields, hd.1, hd.2, ih]
        rfl
  have hsame := Keyed.ofList_of_perm (hperm.map fun e => (e.1, f e.2)) (hasc.map f)
  rw [toValue, hfields, Keyed.ofList_of_ascending (hasc.map f), ← hsame]
  rfl

end Datum

namespace Shape

/-! ## Which inhabitants survive -/

/-- Whether null is read as an inhabitant. -/
def takesNull : Shape → Bool
  | unit => true
  | option _ => true
  | value => true
  | _ => false

/-- Whether an inhabitant can be told from all others by its plain form. The types that the library
has for its own ends are left out. -/
def Fits : (s : Shape) → s.Carrier → Prop
  | bool, _ => True
  | int _, _ => True
  | float, x => x.isFinite = true
  | char, _ => True
  | string, _ => True
  | unit, _ => True
  | option _, none => True
  | option s, some a => s.takesNull = false ∧ s.Fits a
  | list s, items => List.Forall s.Fits items
  | pair a b, (x, y) => a.Fits x ∧ b.Fits y
  | map s, entries => Keyed.Ascending entries ∧ List.Forall (fun e => s.Fits e.2) entries
  | value, v => v.Ordered
  | _, _ => False

/-- Whether a program holds an inhabitant as this data. A map may list its entries in any order. -/
def HeldAs : (s : Shape) → s.Carrier → Datum → Prop
  | bool, b, d => d = .value (.bool b)
  | int _, n, d => d = .int n.1
  | float, x, d => d = .float x
  | char, c, d => d = .char c
  | string, t, d => d = .value (.string t)
  | unit, _, d => d = .unit
  | option _, none, d => d = .none
  | option s, some a, d => ∃ d', d = .some d' ∧ s.HeldAs a d'
  | list s, items, d => ∃ ds, d = .list ds ∧ List.Forall₂ s.HeldAs items ds
  | pair a b, (x, y), d => ∃ d₁ d₂, d = .list [d₁, d₂] ∧ a.HeldAs x d₁ ∧ b.HeldAs y d₂
  | map s, entries, d => ∃ entries' ds, d = .map ds ∧ List.Perm entries' entries ∧
      List.Forall₂ (fun e d => d.1 = .value (.string e.1) ∧ s.HeldAs e.2 d.2) entries' ds
  | value, v, d => d = .value v
  | _, _, _ => False

/-- **Null is read as an inhabitant of some types only.** -/
theorem ofValue_null {s : Shape} (h : s.takesNull = false) :
    ∃ cause, s.ofValue .null = .error cause := by
  cases s with
  | unit => cases h
  | option s => cases h
  | value => cases h
  | _ => exact ⟨_, rfl⟩

/-! ## There and back -/

/-- **An inhabitant is read back from its plain form.** -/
theorem ofValue_toValue : (s : Shape) → (a : s.Carrier) → s.Fits a →
    s.ofValue (s.toValue a) = .ok a
  | bool, _, _ => rfl
  | int k, n, _ => by
      have hint : k.ofInt? n.toWireInt.1 = some n := dif_pos n.2
      show ValueReader.int k (.int n.toWireInt) = .ok n
      rw [ValueReader.int, hint]
  | float, x, h => by
      show ValueReader.float (.ofBinary64 x) = .ok x
      rw [Value.ofBinary64_of_finite h]
      rfl
  | char, c, _ => by
      show ValueReader.char (.string (String.ofList [c])) = .ok c
      rw [ValueReader.char, String.toList_ofList]
  | string, _, _ => rfl
  | unit, _, _ => rfl
  | option _, none, _ => rfl
  | option s, some a, h => by
      have hback := ofValue_toValue s a h.2
      -- null stands for the absent one, and this one is not null because it can be read back
      have hnull : s.toValue a ≠ .null := fun hnull => by
        obtain ⟨cause, hcause⟩ := ofValue_null h.1
        rw [hnull, hcause] at hback
        cases hback
      exact (ValueReader.option_of_ne_null hnull).trans (congrArg (Except.map some) hback)
  | list s, items, h => ValueReader.list_map fun a ha =>
      ofValue_toValue s a (List.forall_iff_forall_mem.mp h a ha)
  | pair a b, (x, y), h =>
      ValueReader.pair_of_eq_ok (ofValue_toValue a x h.1) (ofValue_toValue b y h.2)
  | map s, entries, h => ValueReader.map_object h.1 fun e he =>
      ofValue_toValue s e.2 (List.forall_iff_forall_mem.mp h.2 e he)
  | value, _, _ => rfl

/-- The plain form of an inhabitant has its fields in order. -/
theorem ordered_toValue : (s : Shape) → (a : s.Carrier) → s.Fits a → (s.toValue a).Ordered
  | bool, _, _ => trivial
  | int _, _, _ => trivial
  | float, x, h => by
      show (Value.ofBinary64 x).Ordered
      rw [Value.ofBinary64_of_finite h]
      trivial
  | char, _, _ => trivial
  | string, _, _ => trivial
  | unit, _, _ => trivial
  | option _, none, _ => trivial
  | option s, some a, h => ordered_toValue s a h.2
  | list s, items, h => Value.itemsOrdered_map fun a ha =>
      ordered_toValue s a (List.forall_iff_forall_mem.mp h a ha)
  | pair a b, (x, y), h => ⟨ordered_toValue a x h.1, ordered_toValue b y h.2, trivial⟩
  | map s, entries, h => Value.ordered_object h.1 fun e he =>
      ordered_toValue s e.2 (List.forall_iff_forall_mem.mp h.2 e he)
  | value, _, h => h

/-- **Whatever an inhabitant is held as, its plain form is the same.** -/
theorem toValue_of_heldAs : (s : Shape) → (a : s.Carrier) → (d : Datum) → s.Fits a →
    s.HeldAs a d → d.toValue = .ok (s.toValue a)
  | bool, _, _, _, rfl => rfl
  | int k, n, _, _, rfl => by
      have hwire : WireInt.ofInt? n.1 = some n.toWireInt := dif_pos n.toWireInt.2
      rw [Datum.toValue, hwire]
      rfl
  | float, _, _, _, rfl => rfl
  | char, _, _, _, rfl => rfl
  | string, _, _, _, rfl => rfl
  | unit, _, _, _, rfl => rfl
  | option _, none, _, _, rfl => rfl
  | option s, some a, _, h, ⟨d, rfl, hd⟩ => by
      rw [Datum.toValue, toValue_of_heldAs s a d h.2 hd]
      rfl
  | list s, items, _, h, ⟨ds, rfl, hds⟩ => by
      have hboth := (List.forall₂_and_left _ _).mpr ⟨List.forall_iff_forall_mem.mp h, hds⟩
      exact Datum.toValue_list (hboth.imp fun a d had => toValue_of_heldAs s a d had.1 had.2)
  | pair a b, (x, y), _, h, ⟨d₁, d₂, rfl, h₁, h₂⟩ => by
      have hx := toValue_of_heldAs a x d₁ h.1 h₁
      have hy := toValue_of_heldAs b y d₂ h.2 h₂
      exact Datum.toValue_list (f := id) (.cons hx (.cons hy .nil))
  | map s, entries, _, h, ⟨entries', ds, rfl, hperm, hds⟩ => by
      have hfits : ∀ e ∈ entries', s.Fits e.2 := fun e he =>
        List.forall_iff_forall_mem.mp h.2 e (hperm.mem_iff.mp he)
      have hboth := (List.forall₂_and_left _ _).mpr ⟨hfits, hds⟩
      refine Datum.toValue_map h.1 hperm (hboth.imp ?_)
      rintro e ⟨k, d⟩ ⟨he, rfl, hd⟩
      exact ⟨rfl, toValue_of_heldAs s e.2 d he hd⟩
  | value, _, _, _, rfl => rfl

end Shape

end PeerRpc
