/-!
# PeerRpc.Keyed -- association lists in the order of their keys

A `Keyed α` is an association list from texts whose keys ascend strictly (`Ascending`). `insert`
puts an entry in its place and lets the later of two equal keys win (`get?_insert`); `ofList` does
so for entries in any order (`ascending_ofList`). Keys compare by code points, which is also the
order of their UTF-8 octets.
-/

namespace PeerRpc

/-- An association list from texts. -/
abbrev Keyed (α : Type) := List (String × α)

namespace Keyed

variable {α : Type}

/-- The keys ascend strictly. -/
def Ascending (entries : Keyed α) : Prop := (entries.map Prod.fst).Pairwise (· < ·)

/-- The entries with `key` bound to `a`. -/
def insert (key : String) (a : α) : Keyed α → Keyed α
  | [] => [(key, a)]
  | (k, b) :: rest =>
    if key < k then (key, a) :: (k, b) :: rest
    else if key = k then (key, a) :: rest
    else (k, b) :: insert key a rest

/-- The entries of a list in order, the later of two equal keys winning. -/
def ofList (entries : List (String × α)) : Keyed α :=
  entries.foldl (fun acc e => insert e.1 e.2 acc) []

/-- What `key` is bound to. -/
def get? (entries : Keyed α) (key : String) : Option α :=
  (entries.find? fun e => e.1 = key).map Prod.snd

/-- An inserted entry hides what its key was bound to and nothing else. -/
theorem get?_insert (key key' : String) (a : α) (entries : Keyed α) :
    get? (insert key a entries) key' = if key = key' then some a else get? entries key' := by
  induction entries with
  | nil => by_cases h : key = key' <;> simp [insert, get?, h]
  | cons e rest ih =>
    obtain ⟨k, b⟩ := e
    have cons (x : String) (y : α) (l : Keyed α) :
        get? ((x, y) :: l) key' = if x = key' then some y else get? l key' := by
      by_cases h : x = key' <;> simp [get?, h]
    rw [insert]
    split
    · rw [cons]
    · split
      · next hk =>
        subst hk
        rw [cons, cons]
        split <;> rfl
      · next hk =>
        rw [cons, ih, cons]
        by_cases h : key = key'
        · subst h; simp [Ne.symm hk]
        · simp [h]

theorem mem_keys_insert {key k : String} {a : α} {entries : Keyed α}
    (h : k ∈ (insert key a entries).map Prod.fst) : k = key ∨ k ∈ entries.map Prod.fst := by
  induction entries with
  | nil => simpa [insert] using h
  | cons e rest ih =>
    obtain ⟨x, b⟩ := e
    rw [insert] at h
    split at h
    · simpa using h
    · split at h
      · rcases List.mem_cons.1 h with h | h
        · exact .inl h
        · exact .inr (List.mem_cons_of_mem _ h)
      · rcases List.mem_cons.1 h with h | h
        · exact .inr (by simp [h])
        · exact (ih h).imp_right (List.mem_cons_of_mem _)

/-- Insertion keeps the order of keys. -/
theorem Ascending.insert {key : String} {a : α} {entries : Keyed α} (h : Ascending entries) :
    Ascending (insert key a entries) := by
  induction entries with
  | nil => simp [Ascending, Keyed.insert]
  | cons e rest ih =>
    obtain ⟨k, b⟩ := e
    obtain ⟨hk, hrest⟩ := List.pairwise_cons.1 h
    rw [Keyed.insert]
    split
    · next hlt =>
      refine List.pairwise_cons.2 ⟨fun x hx => ?_, h⟩
      rcases List.mem_cons.1 hx with rfl | hx
      · exact hlt
      · exact String.lt_trans hlt (hk x hx)
    · split
      · next heq =>
        subst heq
        exact List.pairwise_cons.2 ⟨hk, hrest⟩
      · next hlt hne =>
        refine List.pairwise_cons.2 ⟨fun x hx => ?_, ih hrest⟩
        rcases mem_keys_insert hx with rfl | hx
        · exact Std.lt_of_le_of_ne (String.not_lt.1 hlt) (Ne.symm hne)
        · exact hk x hx

/-- The entries of a list end up in the order of keys, in whatever order they came. -/
theorem ascending_ofList (entries : List (String × α)) : Ascending (ofList entries) := by
  suffices h : ∀ (es : List (String × α)) (acc : Keyed α), Ascending acc →
      Ascending (es.foldl (fun acc e => insert e.1 e.2 acc) acc) from h entries [] .nil
  intro es
  induction es with
  | nil => exact fun _ h => h
  | cons e rest ih => exact fun acc h => ih _ h.insert

end Keyed

end PeerRpc
