import PeerRpc.Proofs.Duo.Basic

/-!
# PeerRpc.Proofs.Duo.Leads -- where the moves of a turn lead

A turn of a session is a number of moves of the duo that it shows. `Duo.Leads` says that such moves
lead to a duo with some property, unless an endpoint uses up its ids on the way: a `Host` makes no
call then, and a session cannot know. What every act of a turn keeps at a host is so after the turn
(`Duo.Leads.keep`).
-/

namespace PeerRpc

variable {η : Type}

/-- Whether something may be done in a turn of a session: no handler there fires the signal of its
own call, and no time passes. -/
def Op.InTurn : Op η → Prop
  | stop _ => False
  | wait _ => False
  | _ => True

/-- Whether an act may be a part of a turn. -/
def Act.InTurn : Act η → Prop
  | op o => o.InTurn
  | _ => True

variable [Handler η]

/-- Time does not pass in a turn. -/
theorem Host.now_step (h : Host η) {a : Act η} (ha : a.InTurn) :
    (h.step a).1.now = h.now := by
  cases a with
  | op o =>
      cases o with
      | wait ms => exact ha.elim
      | stop serial => exact ha.elim
      | invoke i method args =>
          simp only [step, operate]
          split
          · rfl
          · split <;> rfl
      | request proxy method args =>
          simp only [step, operate]
          split <;> rfl
      | notify i method args =>
          simp only [step, operate, attempt]
          split <;> rfl
      | notifyProxy proxy method args =>
          simp only [step, operate, attempt]
          split <;> rfl
      | cancel k =>
          simp only [step, operate, onCall]
          split <;> rfl
      | drop k =>
          simp only [step, operate, onCall]
          split <;> rfl
      | poll k =>
          simp only [step, operate, onCall]
          split <;> rfl
      | set i handler =>
          simp only [step, operate]
          split <;> rfl
      | conclude serial o =>
          simp only [step, operate]
          split <;> rfl
      | reap serial =>
          simp only [step, operate]
          split <;> rfl
      | _ => rfl
  | receive frame => rfl
  | take =>
      simp only [step]
      split <;> rfl
  | sent r =>
      simp only [step]
      split <;> rfl

namespace Duo

/-! ## Where moves lead -/

/-- Moves of a turn lead to a duo with a property, or to one in which an endpoint has used up its
ids. -/
def Leads (d : Duo η) (P : Duo η → Prop) : Prop :=
  ∃ moves, (∀ m ∈ moves, m.Meets Op.InTurn) ∧
    (P (d.run moves) ∨ ∃ s, ((d.run moves).host s).endpoint.nextId = 0)

theorem run_append (xs ys : List (Move η)) (d : Duo η) :
    d.run (xs ++ ys) = (d.run xs).run ys := List.foldl_append

omit [Handler η] in
theorem put_put (d : Duo η) (s : Side) (p p' : Memory.Pair) (k k' : Desk η) :
    (d.put s p k).put s p' k' = d.put s p' k' := by
  unfold put
  have hdesk : (fun s' => if s' = s then k' else if s' = s then k else d.desk s') =
      fun s' => if s' = s then k' else d.desk s' := by
    funext s'
    by_cases hs : s' = s
    · rw [if_pos hs, if_pos hs]
    · rw [if_neg hs, if_neg hs, if_neg hs]
  rw [hdesk]

/-- The loops of a side have tickets of their own. -/
theorem readerTicket_ne (s : Side) : readerTicket s ≠ writerTicket s := by
  cases s <;> decide

omit [Handler η] in
/-- The same desks on another pair. -/
theorem put_desk (d : Duo η) (s : Side) (p : Memory.Pair) :
    d.put s p (d.desk s) = { d with pair := p } := by
  unfold put
  congr 1
  funext s'
  by_cases hs : s' = s
  · rw [if_pos hs, hs]
  · rw [if_neg hs]

/-- A run that leads to a property, unless an endpoint uses up its ids, can be gone on with. -/
theorem run_then {ok : Op η → Prop} {d : Duo η} {P Q : Duo η → Prop}
    (h : ∃ moves, (∀ m ∈ moves, m.Meets ok) ∧
      (P (d.run moves) ∨ ∃ s, ((d.run moves).host s).endpoint.nextId = 0))
    (hPQ : ∀ d', P d' → ∃ more, (∀ m ∈ more, m.Meets ok) ∧
      (Q (d'.run more) ∨ ∃ s, ((d'.run more).host s).endpoint.nextId = 0)) :
    ∃ moves, (∀ m ∈ moves, m.Meets ok) ∧
      (Q (d.run moves) ∨ ∃ s, ((d.run moves).host s).endpoint.nextId = 0) := by
  obtain ⟨moves, hmoves, hP | hspent⟩ := h
  · obtain ⟨more, hmore, hQ⟩ := hPQ _ hP
    refine ⟨moves ++ more, fun m hm => ?_, ?_⟩
    · rcases List.mem_append.mp hm with hm | hm
      · exact hmoves m hm
      · exact hmore m hm
    · rw [run_append]
      exact hQ
  · exact ⟨moves, hmoves, Or.inr hspent⟩

namespace Leads

variable {d : Duo η} {P Q : Duo η → Prop}

theorem here (h : P d) : d.Leads P := ⟨[], fun _ hm => absurd hm List.not_mem_nil, Or.inl h⟩

theorem trans (h : d.Leads P) (hPQ : ∀ d', P d' → d'.Leads Q) : d.Leads Q := run_then h hPQ

theorem mono (h : d.Leads P) (hPQ : ∀ d', P d' → Q d') : d.Leads Q :=
  h.trans fun d' hP => here (hPQ d' hP)

/-- A move, and what it leads to. -/
theorem move (m : Move η) (hm : m.Meets Op.InTurn)
    (h : (d.move m).Leads P) : d.Leads P := by
  have hfirst : d.Leads fun d' => d' = d.move m := by
    refine ⟨[m], fun m' hm' => ?_, Or.inl rfl⟩
    obtain rfl := List.mem_singleton.mp hm'
    exact hm
  apply hfirst.trans
  rintro d' rfl
  exact h

end Leads

/-! ## What stays on the way -/

/-- What the acts of a turn keep at a host, the moves of a turn keep. -/
theorem kept_move {Q : Host η → Prop}
    (hQ : ∀ h a, a.InTurn → Q h → Q (h.step a).1) {d : Duo η} {s : Side} (hd : Q (d.host s))
    {m : Move η} (hm : m.Meets Op.InTurn) : Q ((d.move m).host s) := by
  -- a side is changed by acts only, and the other one not at all
  have hput : ∀ s' p k, (Q (d.host s') → Q k.host) → Q ((d.put s' p k).host s) := by
    intro s' p k hk
    by_cases hs : s = s'
    · subst hs
      show Q ((d.put s p k).desk s).host
      rw [desk_put]
      exact hk hd
    · show Q ((d.put s' p k).desk s).host
      rw [d.desk_put_ne hs]
      exact hd
  cases m with
  | op s' o => exact hput s' _ _ fun h => hQ _ _ hm h
  | read s' =>
      show Q ((d.read s').host s)
      unfold read
      dsimp only
      split
      · split
        · split
          · exact hput s' _ _ id
          · exact hput s' _ _ fun h => hQ _ (.receive _) trivial h
          · exact hput s' _ _ fun h => hQ _ (.op .close) trivial h
        · exact hput s' _ _ id
      · exact hput s' _ _ id
      · exact hd
  | write s' =>
      show Q ((d.write s').host s)
      unfold write
      dsimp only
      split
      · split
        · exact hput s' _ _ fun h => hQ _ .take trivial h
        · split
          · exact hd
          · exact hput s' _ _ id
      · split
        · exact hput s' _ _ id
        · exact hput s' _ _ fun h => hQ _ (.sent _) trivial h
        · exact hput s' _ _ fun h => hQ _ (.sent _) trivial h
      · exact hd
  | shut s' =>
      unfold move
      dsimp only
      split <;> exact hd
  | release s' =>
      unfold move
      dsimp only
      split <;> exact hd

theorem kept_run {Q : Host η → Prop}
    (hQ : ∀ h a, a.InTurn → Q h → Q (h.step a).1) {s : Side} {moves : List (Move η)}
    (hmoves : ∀ m ∈ moves, m.Meets Op.InTurn) {d : Duo η} (hd : Q (d.host s)) :
    Q ((d.run moves).host s) := by
  induction moves generalizing d with
  | nil => exact hd
  | cons m moves ih =>
      apply ih (fun m' hm' => hmoves m' (List.mem_cons_of_mem _ hm'))
      exact kept_move hQ hd (hmoves m List.mem_cons_self)

theorem Leads.keep {d : Duo η} {P : Duo η → Prop} {Q : Host η → Prop} {s : Side}
    (h : d.Leads P) (hQ : ∀ h a, a.InTurn → Q h → Q (h.step a).1) (hd : Q (d.host s)) :
    d.Leads fun d' => P d' ∧ Q (d'.host s) := by
  obtain ⟨moves, hmoves, hP | hspent⟩ := h
  · exact ⟨moves, hmoves, Or.inl ⟨hP, kept_run hQ hmoves hd⟩⟩
  · exact ⟨moves, hmoves, Or.inr hspent⟩

end Duo

end PeerRpc
