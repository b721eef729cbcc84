import PeerRpc.Codec

/-!
# PeerRpc.Proofs.Codec.Depth -- which messages can be encoded

`Codec.withinDepth` looks at values one after the other and never goes down into one. What it keeps
is that the values still to be looked at are `Allowed`: none of them, counted from where it stands,
is deeper than `maxDepth`. A look does not change whether they are (`allowed_look`), and it leaves
one value less, so the loop comes to an end after as many looks as there are values at most
(`looks_withinDepthFrom`, `Looks.le_remaining`), and says of a payload whether its depth is at most
`maxDepth` (`withinDepth_iff`).

That is all that `Codec.encodeMessage` asks of a payload (`encodeMessage_eq_ok`), in whatever order
payloads and parts of payloads come. `depth_checked` says so of every message.
-/

namespace PeerRpc

namespace Value

theorem depth_pos (v : Value) : 0 < v.depth := by
  cases v <;> simp [depth]

theorem depthOfItems_le (items : List Value) (n : Nat) :
    depthOfItems items ≤ n ↔ ∀ v ∈ items, v.depth ≤ n := by
  induction items with
  | nil => simp [depthOfItems]
  | cons v rest ih => rw [depthOfItems, Nat.max_le, ih, List.forall_mem_cons]

/-- The greatest depth is that of one of the items. -/
theorem exists_depth_eq {items : List Value} (h : items ≠ []) :
    ∃ w ∈ items, w.depth = depthOfItems items := by
  induction items with
  | nil => exact absurd rfl h
  | cons v rest ih =>
      rw [depthOfItems]
      by_cases hle : depthOfItems rest ≤ v.depth
      · exact ⟨v, List.mem_cons_self, (Nat.max_eq_left hle).symm⟩
      · have hrest : rest ≠ [] := by
          rintro rfl
          exact hle (Nat.zero_le _)
        obtain ⟨w, hw, hdeep⟩ := ih hrest
        exact ⟨w, List.mem_cons_of_mem v hw, hdeep.trans (Nat.max_eq_right (by omega)).symm⟩

theorem depthOfFields_eq (fields : Keyed Value) :
    depthOfFields fields = depthOfItems (fields.map Prod.snd) := by
  induction fields with
  | nil => rfl
  | cons p rest ih =>
      obtain ⟨k, v⟩ := p
      simp only [depthOfFields, List.map_cons, depthOfItems, ih]

theorem depth_eq (v : Value) : v.depth = depthOfItems v.children + 1 := by
  cases v with
  | object fields =>
      rw [depth, depthOfFields_eq]
      rfl
  | _ => rfl

/-- A value without parts has depth one, -/
theorem depth_of_flat {v : Value} (h : v.children = []) : v.depth = 1 := by
  rw [depth_eq, h, depthOfItems]

/-- and any other is one deeper than its deepest part. -/
theorem depth_of_nested {v : Value} (h : v.children ≠ []) :
    ∃ w ∈ v.children, v.depth = w.depth + 1 ∧ ∀ u ∈ v.children, u.depth ≤ w.depth := by
  obtain ⟨w, hw, hdeep⟩ := exists_depth_eq h
  refine ⟨w, hw, by rw [depth_eq, hdeep], ?_⟩
  rw [hdeep]
  exact (depthOfItems_le v.children _).mp (Nat.le_refl _)

end Value

namespace Message

/-- The values whose depth matters. -/
inductive Carries : Message → Value → Prop
  /-- The arguments of a request -/
  | argument (id : RequestId) (proxy : ProxyId) (method : String) {args : List Value} {v : Value}
      (h : v ∈ args) : Carries (.request id proxy method args) v
  /-- and of a notification, -/
  | told (proxy : ProxyId) (method : String) {args : List Value} {v : Value} (h : v ∈ args) :
      Carries (.notification proxy method args) v
  /-- the value of a reply, -/
  | answer (id : RequestId) (v : Value) : Carries (.reply id v) v
  /-- and the details of an error, if there are any. -/
  | details (id : RequestId) {error : RemoteError} {v : Value} (h : error.details = some v) :
      Carries (.replyErr id error) v

theorem carries_iff {m : Message} {v : Value} : m.Carries v ↔ v ∈ m.payloads := by
  constructor
  · intro h
    cases h with
    | argument _ _ _ h => exact h
    | told _ _ h => exact h
    | answer _ _ => exact List.mem_singleton_self v
    | details _ h => exact Option.mem_toList.mpr h
  · intro h
    cases m with
    | request id proxy method args => exact .argument id proxy method h
    | notification proxy method args => exact .told proxy method h
    | reply id value =>
        cases List.mem_singleton.mp h
        exact .answer id v
    | replyErr id error => exact .details id (Option.mem_toList.mp h)
    | cancel id => exact absurd h List.not_mem_nil

end Message

namespace Codec

/-! ## The loop -/

/-- No value that is still to be looked at is nested too deep, counted from where it stands. -/
def Allowed (todo : List (Value × Nat)) : Prop := ∀ p ∈ todo, p.1.depth + p.2 ≤ maxDepth + 1

/-- The parts of a value stand one deeper than it does. -/
theorem allowed_children {v : Value} {depth : Nat} (h : depth ≤ maxDepth) :
    Allowed (v.children.map fun w => (w, depth + 1)) ↔ v.depth + depth ≤ maxDepth + 1 := by
  have hitems := Value.depthOfItems_le v.children (maxDepth - depth)
  rw [Allowed, v.depth_eq, List.forall_mem_map]
  constructor
  · intro hall
    have hle := hitems.mpr fun w hw => by
      have := hall w hw
      dsimp only at this
      omega
    omega
  · intro hle w hw
    have := hitems.mp (by omega) w hw
    dsimp only
    omega

/-- **What a look says of the values that are left.** -/
theorem allowed_look (todo : List (Value × Nat)) :
    match look todo with
    | .finished => Allowed todo
    | .tooDeep => ¬Allowed todo
    | .goOn todo' => Allowed todo ↔ Allowed todo' := by
  cases todo with
  | nil => exact fun p hp => absurd hp List.not_mem_nil
  | cons p rest =>
      obtain ⟨v, depth⟩ := p
      rw [look]
      by_cases hdeep : maxDepth < depth
      · rw [if_pos hdeep]
        intro hall
        have hv := hall (v, depth) List.mem_cons_self
        have hpos := v.depth_pos
        dsimp only at hv
        omega
      · rw [if_neg hdeep]
        have hparts := allowed_children (v := v) (Nat.le_of_not_lt hdeep)
        dsimp only
        simp only [Allowed, List.forall_mem_append, List.mem_reverse, List.forall_mem_cons]
          at hparts ⊢
        rw [hparts]

/-- The loop says whether all values that are still to be looked at are allowed. -/
theorem withinDepthFrom_iff (todo : List (Value × Nat)) :
    withinDepthFrom todo = true ↔ Allowed todo := by
  fun_induction withinDepthFrom todo with
  | case1 todo h =>
      have hlook := allowed_look todo
      rw [h] at hlook
      exact iff_of_true rfl hlook
  | case2 todo h =>
      have hlook := allowed_look todo
      rw [h] at hlook
      exact iff_of_false Bool.false_ne_true hlook
  | case3 todo todo' h ih =>
      have hlook := allowed_look todo
      rw [h] at hlook
      exact ih.trans hlook.symm

/-- `Looks n todo b`: the loop comes to the end `b` after `n` looks that go on. -/
inductive Looks : Nat → List (Value × Nat) → Bool → Prop
  | finished {todo : List (Value × Nat)} (h : look todo = .finished) : Looks 0 todo true
  | tooDeep {todo : List (Value × Nat)} (h : look todo = .tooDeep) : Looks 0 todo false
  | goOn {n : Nat} {todo todo' : List (Value × Nat)} {b : Bool} (h : look todo = .goOn todo')
      (rest : Looks n todo' b) : Looks (n + 1) todo b

/-- **The loop comes to an end**, and to the one that it is said to come to. -/
theorem looks_withinDepthFrom (todo : List (Value × Nat)) :
    ∃ n, Looks n todo (withinDepthFrom todo) := by
  fun_induction withinDepthFrom todo with
  | case1 todo h => exact ⟨0, .finished h⟩
  | case2 todo h => exact ⟨0, .tooDeep h⟩
  | case3 todo todo' h ih =>
      obtain ⟨n, hn⟩ := ih
      exact ⟨n + 1, .goOn h hn⟩

/-- No value is looked at twice, -/
theorem Looks.le_remaining {n : Nat} {todo : List (Value × Nat)} {b : Bool} (h : Looks n todo b) :
    n ≤ remaining todo := by
  induction h with
  | finished _ => exact Nat.zero_le _
  | tooDeep _ => exact Nat.zero_le _
  | goOn h _ ih =>
      rw [remaining_look h]
      exact Nat.succ_le_succ ih

/-- and none is left out unless one is nested too deep. -/
theorem Looks.eq_remaining {n : Nat} {todo : List (Value × Nat)} (h : Looks n todo true) :
    n = remaining todo := by
  generalize hb : true = b at h
  induction h with
  | @finished todo h =>
      cases todo with
      | nil => rfl
      | cons p rest =>
          rw [look] at h
          split at h <;> cases h
  | tooDeep _ => cases hb
  | goOn h _ ih => rw [remaining_look h, ih hb]

/-- **The check of a payload measures its depth.** -/
theorem withinDepth_iff (v : Value) : withinDepth v = true ↔ v.depth ≤ maxDepth := by
  rw [withinDepth, withinDepthFrom_iff]
  simp [Allowed]

/-- **A message can be encoded exactly if no payload is too deep.** -/
theorem encodeMessage_eq_ok (m : Message) (bs : Bytes) :
    encodeMessage m = .ok bs ↔
      (∀ v ∈ m.payloads, v.depth ≤ maxDepth) ∧ Cbor.encodeMessage m = bs := by
  unfold encodeMessage
  have hall : (m.payloads.all withinDepth) = true ↔ ∀ v ∈ m.payloads, v.depth ≤ maxDepth := by
    simp only [List.all_eq_true, withinDepth_iff]
  by_cases h : m.payloads.all withinDepth = true
  · rw [if_pos h, Except.ok.injEq]
    exact (and_iff_right (hall.mp h)).symm
  · rw [if_neg h]
    exact iff_of_false nofun fun hand => h (hall.mpr hand.1)

theorem encodeMessage_eq_error {m : Message} {err : CodecError} (h : encodeMessage m = .error err) :
    err = .nestingTooDeep maxDepth := by
  unfold encodeMessage at h
  split at h
  · cases h
  · exact (Except.error.inj h).symm

/-! ## Every message -/

/-- **What becomes of a message that is to be encoded.** -/
structure Checked (m : Message) : Prop where
  /-- It is refused exactly if some payload is nested too deep, -/
  refused : (∃ err, encodeMessage m = .error err) ↔ ∃ v, m.Carries v ∧ maxDepth < v.depth
  /-- always with the same error, -/
  cause : ∀ err, encodeMessage m = .error err → err = .nestingTooDeep maxDepth
  /-- and in every other case its octets are those it has without the check. -/
  written : (¬∃ v, m.Carries v ∧ maxDepth < v.depth) →
    encodeMessage m = .ok (Shape.message.encode m)

/-- **What becomes of a payload that is checked.** -/
structure Measured (v : Value) : Prop where
  /-- The loop comes to an end, after one look for every value inside the payload at most, and after
  all of these unless a value is nested too deep, -/
  ends : ∃ n ≤ v.size, Looks n [(v, 1)] (withinDepth v) ∧ (withinDepth v = true → n = v.size)
  /-- and answers by the depth of the payload. -/
  answer : withinDepth v = true ↔ v.depth ≤ maxDepth
  /-- Its depth is one if it has no parts, -/
  flat : v.children = [] → v.depth = 1
  /-- otherwise one more than that of its deepest part. -/
  nested : v.children ≠ [] →
    ∃ w ∈ v.children, v.depth = w.depth + 1 ∧ ∀ u ∈ v.children, u.depth ≤ w.depth

theorem measured (v : Value) : Measured v where
  ends := by
    obtain ⟨n, hn⟩ := looks_withinDepthFrom [(v, 1)]
    have hsize : remaining [(v, 1)] = v.size := Nat.add_zero _
    refine ⟨n, hsize ▸ hn.le_remaining, hn, fun hwithin => ?_⟩
    rw [withinDepth] at hwithin
    rw [hwithin] at hn
    exact hsize ▸ hn.eq_remaining
  answer := withinDepth_iff v
  flat := Value.depth_of_flat
  nested := Value.depth_of_nested

/-- Nothing that a message carries is nested too deep. -/
theorem payloads_le_iff (m : Message) :
    (∀ v ∈ m.payloads, v.depth ≤ maxDepth) ↔ ¬∃ v, m.Carries v ∧ maxDepth < v.depth := by
  simp only [Message.carries_iff, not_exists, not_and, Nat.not_lt]

theorem checked (m : Message) : Checked m := by
  have hwritten (hall : ¬∃ v, m.Carries v ∧ maxDepth < v.depth) :
      encodeMessage m = .ok (Shape.message.encode m) :=
    (encodeMessage_eq_ok m _).mpr ⟨(payloads_le_iff m).mpr hall, rfl⟩
  refine ⟨⟨?_, ?_⟩, fun _ => encodeMessage_eq_error, hwritten⟩
  · rintro ⟨err, herr⟩
    refine Classical.byContradiction fun hall => ?_
    rw [hwritten hall] at herr
    cases herr
  · intro hdeep
    cases hm : encodeMessage m with
    | error err => exact ⟨err, rfl⟩
    | ok bs =>
        have hall := (payloads_le_iff m).mp ((encodeMessage_eq_ok m bs).mp hm).1
        exact absurd hdeep hall

/-- **A message is encoded unless a payload is nested deeper than `maxDepth`**, whatever its kind
and wherever in it that payload stands; and the loop that finds this out ends on every value and
measures its depth. -/
theorem depth_checked : (∀ m, Checked m) ∧ ∀ v, Measured v := ⟨checked, measured⟩

end Codec

end PeerRpc
