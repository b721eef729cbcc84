import PeerRpc.Identifier

/-!
# PeerRpc.Proofs.Identifier.Table -- what a table of identifiers knows

A table says everything twice: its list gives each id an identifier, and its index gives each name
of a side an id. `IdentifierTable.InStep` says that the two agree and that ids are places. A new
entry keeps them in step if its name is new and its place fits into an id (`InStep.push`), so the
table of every history of definitions, accepted and refused ones, is in step (`InStep.after`). The
table that hosts start from is filled without looking for duplicates; since its names are distinct
it is a history like any other (`wellKnown_eq`).

`definitions_kept` reads off what users rely on: ids are dense, an id and a name find the same
entry, and a table answers as every earlier state of it does.
-/

namespace PeerRpc

namespace IdentifierTable

variable {t t' : IdentifierTable} {side : Side} {name : String}

/-! ## Histories -/

/-- The table after an attempt to define a name. A refused one leaves it as it is. -/
def attempt (t : IdentifierTable) (d : Side × String) : IdentifierTable :=
  match t.define d.1 d.2 with
  | .ok (t', _) => t'
  | .error _ => t

/-- The table after some attempts. -/
def after (t : IdentifierTable) (ds : List (Side × String)) : IdentifierTable := ds.foldl attempt t

theorem after_append (t : IdentifierTable) (xs ys : List (Side × String)) :
    t.after (xs ++ ys) = (t.after xs).after ys := List.foldl_append

theorem define_of_known {id : ProxyId} (h : t.index.lookup (side, name) = some id) :
    t.define side name = .error (side.name ++ "." ++ name) := by
  unfold define
  rw [h]
  rfl

theorem define_of_new (h : t.index.lookup (side, name) = none) :
    t.define side name = .ok (t.push side name) := by
  unfold define
  rw [h]
  rfl

theorem push_of_define {i : Identifier} (h : t.define side name = .ok (t', i)) :
    t.push side name = (t', i) := by
  unfold define at h
  split at h
  · cases h
  · exact Except.ok.inj h

/-- An attempt appends an entry with a new name, or changes nothing. -/
theorem attempt_cases (t : IdentifierTable) (side : Side) (name : String) :
    (∃ id, t.index.lookup (side, name) = some id ∧ t.attempt (side, name) = t) ∨
      t.index.lookup (side, name) = none ∧ t.attempt (side, name) = (t.push side name).1 := by
  unfold attempt
  cases h : t.index.lookup (side, name) with
  | some id =>
      rw [define_of_known h]
      exact Or.inl ⟨id, rfl, rfl⟩
  | none =>
      rw [define_of_new h]
      exact Or.inr ⟨rfl, rfl⟩

theorem entries_attempt (t : IdentifierTable) (d : Side × String) :
    t.entries <+: (t.attempt d).entries := by
  obtain ⟨side, name⟩ := d
  rcases t.attempt_cases side name with ⟨_, -, heq⟩ | ⟨-, heq⟩
  · simp only [heq, List.prefix_rfl]
  · exact heq ▸ List.prefix_append _ _

/-- No attempt takes an entry away or moves one. -/
theorem entries_after (t : IdentifierTable) (ds : List (Side × String)) :
    t.entries <+: (t.after ds).entries := by
  induction ds generalizing t with
  | nil => exact List.prefix_rfl
  | cons d rest ih => exact (t.entries_attempt d).trans (ih _)

theorem size_le_after (t : IdentifierTable) (ds : List (Side × String)) :
    t.size ≤ (t.after ds).size := (t.entries_after ds).length_le

/-! ## List and index -/

/-- List and index agree. -/
structure InStep (t : IdentifierTable) : Prop where
  /-- The id of an entry is its place. -/
  ids : ∀ (k : Nat) (e : Identifier), t.entries[k]? = some e → e.id.val.toNat = k
  /-- The index knows the names of the entries, and no others. -/
  index : ∀ side name id, t.index.lookup (side, name) = some id ↔
    ∃ e, t.lookup? id = some e ∧ e.side = side ∧ e.name = name

theorem inStep_empty : empty.InStep where
  ids k e h := by
    rw [show empty.entries = [] from rfl, List.getElem?_nil] at h
    cases h
  index side name id := by
    constructor
    · intro h
      rw [show empty.index = [] from rfl, List.lookup_nil] at h
      cases h
    · rintro ⟨e, h, -⟩
      rw [lookup?, show empty.entries = [] from rfl, List.getElem?_nil] at h
      cases h

/-- The entry that a place holds after one more entry has been appended. -/
theorem lookup?_push (t : IdentifierTable) (side : Side) (name : String) (id : ProxyId) :
    (t.push side name).1.lookup? id =
      if id.val.toNat = t.size then some (t.push side name).2 else t.lookup? id := by
  show (t.entries ++ [_])[id.val.toNat]? = _
  rw [List.getElem?_append]
  unfold size lookup?
  split
  · next hlt => rw [if_neg (Nat.ne_of_lt hlt)]
  · next hge =>
      split
      · next heq =>
          rw [heq, Nat.sub_self]
          rfl
      · next hne =>
          have hlt : t.entries.length < id.val.toNat := by omega
          rw [List.getElem?_eq_none (by simp only [List.length_singleton]; omega),
            List.getElem?_eq_none (Nat.le_of_lt hlt)]

theorem lookup_index_push (t : IdentifierTable) (side : Side) (name : String) (side' : Side)
    (name' : String) :
    (t.push side name).1.index.lookup (side', name') =
      if (side', name') = (side, name) then some (t.push side name).2.id
      else t.index.lookup (side', name') := by
  show (((side, name), _) :: t.index).lookup (side', name') = _
  rw [List.lookup_cons]
  by_cases h : (side', name') = (side, name)
  · rw [beq_iff_eq.mpr h, if_pos h]
    rfl
  · rw [beq_eq_false_iff_ne.mpr h, if_neg h]

/-- **One more entry keeps list and index in step**, if its name is new and its place is an id. -/
theorem InStep.push (h : t.InStep) (hsize : t.size < 2 ^ 32)
    (hnew : t.index.lookup (side, name) = none) : (t.push side name).1.InStep := by
  have hplace : (t.push side name).2.id.val.toNat = t.size := UInt32.toNat_ofNat_of_lt' hsize
  refine ⟨fun k e hk => ?_, fun side' name' id => ?_⟩
  · have hk' : (t.entries ++ [(t.push side name).2])[k]? = some e := hk
    rw [List.getElem?_append] at hk'
    split at hk'
    · exact h.ids k e hk'
    · next hge =>
        obtain ⟨hlt, rfl⟩ := List.getElem?_eq_some_iff.mp hk'
        have hk : k = t.entries.length := by
          rw [List.length_singleton] at hlt
          omega
        simp only [List.getElem_singleton]
        exact hplace.trans hk.symm
  · rw [lookup_index_push, lookup?_push]
    by_cases hsame : (side', name') = (side, name)
    · rw [if_pos hsame]
      obtain ⟨rfl, rfl⟩ := Prod.mk.inj hsame
      constructor
      · intro hid
        obtain rfl := Option.some.inj hid
        exact ⟨_, if_pos hplace, rfl, rfl⟩
      · rintro ⟨e, he, hside, hname⟩
        split at he
        · next hid =>
            have hval := UInt32.toNat_inj.mp (hplace.trans hid.symm)
            exact congrArg some (congrArg ProxyId.mk hval)
        · -- an old entry with the name would be known to the index
          have hknown := (h.index side' name' id).mpr ⟨e, he, hside, hname⟩
          rw [hnew] at hknown
          cases hknown
    · rw [if_neg hsame, h.index]
      constructor
      · rintro ⟨e, he, hside, hname⟩
        have hne : id.val.toNat ≠ t.size := Nat.ne_of_lt (List.getElem?_eq_some_iff.mp he).1
        exact ⟨e, by rw [if_neg hne]; exact he, hside, hname⟩
      · rintro ⟨e, he, hside, hname⟩
        split at he
        · obtain rfl := Option.some.inj he
          exact absurd (Prod.ext hside.symm hname.symm) hsame
        · exact ⟨e, he, hside, hname⟩

theorem InStep.attempt (h : t.InStep) (d : Side × String) (hsize : (t.attempt d).size ≤ 2 ^ 32) :
    (t.attempt d).InStep := by
  obtain ⟨side, name⟩ := d
  rcases t.attempt_cases side name with ⟨_, -, heq⟩ | ⟨hnew, heq⟩
  · rw [heq]
    exact h
  · rw [heq] at hsize ⊢
    have hlength : (t.push side name).1.size = t.size + 1 := List.length_append
    exact h.push (by omega) hnew

/-- **The table of every history is in step**, as long as there are ids. -/
theorem InStep.after (h : t.InStep) (ds : List (Side × String))
    (hsize : (t.after ds).size ≤ 2 ^ 32) : (t.after ds).InStep := by
  induction ds generalizing t with
  | nil => exact h
  | cons d rest ih =>
      have hle : (t.attempt d).size ≤ 2 ^ 32 :=
        Nat.le_trans ((t.attempt d).size_le_after rest) hsize
      exact ih (h.attempt d hle) hsize

/-! ## The table that hosts start from -/

/-- Names that are distinct and new can be put in without looking for them. -/
theorem foldl_push_eq {names : List String} (hnodup : names.Nodup)
    (hnew : ∀ name ∈ names, t.index.lookup (side, name) = none) :
    names.foldl (fun t name => (t.push side name).1) t = t.after (names.map fun n => (side, n)) := by
  induction names generalizing t with
  | nil => rfl
  | cons name rest ih =>
      obtain ⟨hname, hrest⟩ := List.nodup_cons.mp hnodup
      have hhead : t.attempt (side, name) = (t.push side name).1 := by
        unfold attempt
        rw [define_of_new (hnew name List.mem_cons_self)]
      show rest.foldl _ (t.push side name).1 = (t.attempt (side, name)).after _
      rw [hhead]
      refine ih hrest fun other hother => ?_
      have hne : (side, other) ≠ (side, name) := by
        intro h
        exact hname ((Prod.mk.inj h).2 ▸ hother)
      rw [lookup_index_push, if_neg hne]
      exact hnew other (List.mem_cons_of_mem name hother)

/-- The names that every host defines, with their sides. -/
def conventions : List (Side × String) :=
  mainServices.map (fun n => (.main, n)) ++ extServices.map fun n => (.ext, n)

/-- **The table that hosts start from is a history**: no name is put in twice for one side. -/
theorem wellKnown_eq : wellKnown = empty.after conventions := by
  have hmain : mainServices.foldl (fun t name => (t.push .main name).1) empty =
      empty.after (mainServices.map fun n => (.main, n)) :=
    foldl_push_eq (by decide) fun _ _ => rfl
  have hext : ∀ name ∈ extServices,
      (empty.after (mainServices.map fun n => (.main, n))).index.lookup (.ext, name) = none := by
    rw [← hmain]
    decide
  unfold wellKnown conventions
  rw [after_append, hmain]
  exact foldl_push_eq (by decide) hext

/-! ## What users rely on -/

/-- The entry of a name, wherever it stands. -/
def Defines (t : IdentifierTable) (side : Side) (name : String) (e : Identifier) : Prop :=
  e ∈ t.entries ∧ e.side = side ∧ e.name = name

theorem InStep.lookup?_eq_some (h : t.InStep) {id : ProxyId} {e : Identifier} :
    t.lookup? id = some e ↔ e ∈ t.entries ∧ e.id = id := by
  constructor
  · intro he
    have hval := UInt32.toNat_inj.mp (h.ids _ e he)
    exact ⟨List.mem_of_getElem? he, congrArg ProxyId.mk hval⟩
  · rintro ⟨he, rfl⟩
    obtain ⟨k, hk⟩ := List.mem_iff_getElem?.mp he
    unfold lookup?
    rw [h.ids k e hk]
    exact hk

theorem InStep.get?_eq_some (h : t.InStep) {e : Identifier} :
    t.get? side name = some e ↔ t.Defines side name e := by
  unfold get?
  rw [Option.bind_eq_some_iff]
  constructor
  · rintro ⟨id, hid, he⟩
    obtain ⟨e', he', hside, hname⟩ := (h.index side name id).mp hid
    obtain rfl := Option.some.inj (he.symm.trans he')
    exact ⟨List.mem_of_getElem? he, hside, hname⟩
  · rintro ⟨hmem, hside, hname⟩
    have he := h.lookup?_eq_some.mpr ⟨hmem, rfl⟩
    exact ⟨e.id, (h.index side name e.id).mpr ⟨e, he, hside, hname⟩, he⟩

/-- No two entries share side and name. -/
theorem InStep.eq_of_defines (h : t.InStep) {e e' : Identifier} (he : t.Defines side name e)
    (he' : t.Defines side name e') : e = e' :=
  Option.some.inj ((h.get?_eq_some.mpr he).symm.trans (h.get?_eq_some.mpr he'))

/-- A name is refused exactly if it is there. -/
theorem InStep.define_eq_error (h : t.InStep) {text : String} :
    t.define side name = .error text ↔
      (∃ e, t.Defines side name e) ∧ text = side.name ++ "." ++ name := by
  cases hid : t.index.lookup (side, name) with
  | some id =>
      obtain ⟨e, he, hside, hname⟩ := (h.index side name id).mp hid
      rw [define_of_known hid]
      constructor
      · intro htext
        exact ⟨⟨e, List.mem_of_getElem? he, hside, hname⟩, (Except.error.inj htext).symm⟩
      · rintro ⟨-, rfl⟩
        rfl
  | none =>
      rw [define_of_new hid]
      constructor
      · intro htext
        cases htext
      · rintro ⟨⟨e, hmem, hside, hname⟩, -⟩
        have he := h.lookup?_eq_some.mpr ⟨hmem, rfl⟩
        have hknown := (h.index side name e.id).mpr ⟨e, he, hside, hname⟩
        rw [hid] at hknown
        cases hknown

/-- What a table knows whose list and index are in step. -/
structure Faithful (t : IdentifierTable) : Prop where
  /-- The entry at place `k` has the id `k`. -/
  dense : ∀ (k : Nat) (e : Identifier), t.entries[k]? = some e → e.id.val.toNat = k
  /-- No two entries share side and name. -/
  unique : ∀ side name e e', t.Defines side name e → t.Defines side name e' → e = e'
  /-- A name finds the entry with this name. -/
  named : ∀ side name e, t.get? side name = some e ↔ t.Defines side name e
  /-- An id finds the entry with this id. -/
  numbered : ∀ id e, t.lookup? id = some e ↔ e ∈ t.entries ∧ e.id = id
  /-- Names and ids find the same entries. -/
  inverse : ∀ e, t.get? e.side e.name = some e ↔ t.lookup? e.id = some e
  /-- A name is refused exactly if it is there. -/
  refused : ∀ side name text, t.define side name = .error text ↔
    (∃ e, t.Defines side name e) ∧ text = side.name ++ "." ++ name

theorem InStep.faithful (h : t.InStep) : t.Faithful where
  dense := h.ids
  unique _ _ _ _ he he' := h.eq_of_defines he he'
  named _ _ _ := h.get?_eq_some
  numbered _ _ := h.lookup?_eq_some
  inverse e := by
    rw [h.get?_eq_some, h.lookup?_eq_some]
    exact ⟨fun he => ⟨he.1, rfl⟩, fun he => ⟨he.1, rfl, rfl⟩⟩
  refused _ _ _ := h.define_eq_error

/-- The second table answers as the first one, as far as that has an answer. -/
structure Keeps (t t' : IdentifierTable) : Prop where
  lookup : ∀ id e, t.lookup? id = some e → t'.lookup? id = some e
  get : ∀ side name e, t.get? side name = some e → t'.get? side name = some e

theorem InStep.keeps (h : t.InStep) (h' : t'.InStep) (hentries : t.entries <+: t'.entries) :
    t.Keeps t' where
  lookup id e he := by
    obtain ⟨hmem, hid⟩ := h.lookup?_eq_some.mp he
    exact h'.lookup?_eq_some.mpr ⟨hentries.subset hmem, hid⟩
  get side name e he := by
    obtain ⟨hmem, hnamed⟩ := h.get?_eq_some.mp he
    exact h'.get?_eq_some.mpr ⟨hentries.subset hmem, hnamed⟩

/-- What a definition that is accepted does. -/
structure Appends (t t' : IdentifierTable) (side : Side) (name : String) (i : Identifier) :
    Prop where
  entries : t'.entries = t.entries ++ [i]
  entry : i.side = side ∧ i.name = name ∧ i.id.val.toNat = t.size
  /-- All other ids have the answers that they had, even if they had none. -/
  lookup : ∀ id, id ≠ i.id → t'.lookup? id = t.lookup? id
  /-- All other names have the answers that they had, even if they had none. -/
  get : ∀ side' name', (side', name') ≠ (side, name) → t'.get? side' name' = t.get? side' name'

theorem InStep.appends_push (h : t.InStep) (hsize : t.size < 2 ^ 32) (side : Side)
    (name : String) : t.Appends (t.push side name).1 side name (t.push side name).2 := by
  have hplace : (t.push side name).2.id.val.toNat = t.size := UInt32.toNat_ofNat_of_lt' hsize
  refine ⟨rfl, ⟨rfl, rfl, hplace⟩, fun id hid => ?_, fun side' name' hne => ?_⟩
  · rw [lookup?_push, if_neg]
    intro heq
    exact hid (congrArg ProxyId.mk (UInt32.toNat_inj.mp (heq.trans hplace.symm)))
  · unfold get?
    rw [lookup_index_push, if_neg hne]
    cases hid : t.index.lookup (side', name') with
    | none => rfl
    | some id =>
        obtain ⟨e, he, -⟩ := (h.index side' name' id).mp hid
        have hlt : id.val.toNat ≠ t.size := Nat.ne_of_lt (List.getElem?_eq_some_iff.mp he).1
        rw [Option.bind_some, Option.bind_some, lookup?_push, if_neg hlt]

/-- What is true of a table and of the history it comes from. -/
structure Kept (start : IdentifierTable) (ds : List (Side × String)) : Prop where
  faithful : (start.after ds).Faithful
  /-- A definition that is refused changes nothing. -/
  refused : ∀ side name text, (start.after ds).define side name = .error text →
    start.after (ds ++ [(side, name)]) = start.after ds
  /-- A definition that is accepted, while there are ids, appends an entry and changes no other
  answer. -/
  accepted : ∀ side name t i, (start.after ds).define side name = .ok (t, i) → t.size ≤ 2 ^ 32 →
    start.after (ds ++ [(side, name)]) = t ∧ (start.after ds).Appends t side name i
  /-- What was found at an earlier time is found now. -/
  earlier : ∀ xs ys, ds = xs ++ ys → (start.after xs).Keeps (start.after ds)

/-- **What becomes of a table in a history of definitions**, accepted and refused ones, that starts
from nothing or from what every host defines and does not run out of ids. -/
theorem definitions_kept (start : IdentifierTable) (hstart : start = empty ∨ start = wellKnown)
    (ds : List (Side × String)) (hsize : (start.after ds).size ≤ 2 ^ 32) : start.Kept ds := by
  have hinStep : ∀ ds, (start.after ds).size ≤ 2 ^ 32 → (start.after ds).InStep := by
    intro ds hsize
    rcases hstart with rfl | rfl
    · exact inStep_empty.after ds hsize
    · rw [wellKnown_eq, ← after_append] at hsize ⊢
      exact inStep_empty.after _ hsize
  have hnow := hinStep ds hsize
  refine ⟨hnow.faithful, fun side name text herror => ?_, fun side name t i hok hle => ?_, ?_⟩
  · show start.after (ds ++ [(side, name)]) = _
    rw [after_append]
    show (start.after ds).attempt (side, name) = _
    unfold attempt
    rw [herror]
  · have hattempt : start.after (ds ++ [(side, name)]) = t := by
      rw [after_append]
      show (start.after ds).attempt (side, name) = t
      unfold attempt
      rw [hok]
    have hpush := push_of_define hok
    have hlength : t.size = (start.after ds).size + 1 := by
      rw [← congrArg (fun x => x.1.size) hpush]
      exact List.length_append
    have happends := hnow.appends_push (by omega) side name
    rw [hpush] at happends
    exact ⟨hattempt, happends⟩
  · rintro xs ys rfl
    rw [after_append] at hsize hnow ⊢
    have hle : (start.after xs).size ≤ 2 ^ 32 :=
      Nat.le_trans ((start.after xs).size_le_after ys) hsize
    exact (hinStep xs hle).keeps hnow ((start.after xs).entries_after ys)

/-- A name is defined on one side, again on the same side, and then on the other one. -/
theorem definitions_kept_debugSessions :
    let ds : List (Side × String) :=
      [(.ext, "debug_sessions"), (.ext, "debug_sessions"), (.main, "debug_sessions")]
    (wellKnown = empty ∨ wellKnown = wellKnown) ∧ (wellKnown.after ds).size ≤ 2 ^ 32 ∧
      wellKnown.Kept ds := by
  intro ds
  have hsize : (wellKnown.after ds).size ≤ 2 ^ 32 := by decide
  exact ⟨Or.inr rfl, hsize, definitions_kept wellKnown (Or.inr rfl) ds hsize⟩

end IdentifierTable

end PeerRpc
