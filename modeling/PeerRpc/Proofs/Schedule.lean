import PeerRpc.Schedule

/-!
# PeerRpc.Proofs.Schedule -- what holds however long tasks take turns

`Schedule.Serves` is an induction rule: what the turn of the first ready task keeps, once the task
has left the queue, and more ready tasks keep, is kept by `settle`, and by `advance` if it is kept
by the clock as well, which moves forward and stops at its limit. What every turn of a task and every
change of the queue keeps (`Schedule.Keeps`) is an instance.
-/

namespace PeerRpc

theorem mem_enqueueTickets {t : Ticket} (ready ts : List Ticket) :
    t ∈ enqueueTickets ready ts ↔ t ∈ ready ∨ t ∈ ts := by
  unfold enqueueTickets
  induction ts generalizing ready with
  | nil => simp
  | cons u rest ih =>
      rw [List.foldl_cons, ih, List.mem_cons]
      split
      · next hu =>
          have hmem : u ∈ ready := by simpa using hu
          constructor
          · exact Or.imp_right Or.inr
          · rintro (h | rfl | h)
            · exact Or.inl h
            · exact Or.inl hmem
            · exact Or.inr h
      · rw [List.mem_append, List.mem_singleton, or_assoc]

namespace Schedule

variable {σ : Type} {m : Schedule σ}

/-- No deadline beyond the limit is looked at. -/
theorem nextDeadline_le {limit d : Nat} {s : σ} (h : m.nextDeadline limit s = some d) :
    d ≤ limit := by
  have hbest : ∀ b ∈ m.nextDeadline limit s, b ≤ limit := by
    unfold nextDeadline
    refine List.foldlRecOn (motive := fun best : Option Nat => ∀ b ∈ best, b ≤ limit) _ _ nofun ?_
    intro best hbest d _ b hb
    split at hb
    · exact hbest b hb
    · next hd =>
        obtain rfl := Option.some.inj hb
        cases best with
        | none => exact Nat.le_of_not_lt hd
        | some b => exact Nat.le_trans (Nat.min_le_right b d) (Nat.le_of_not_lt hd)
  exact hbest d h

/-- A property that is kept when the first ready task takes its turn and when tasks become ready. -/
structure Serves (m : Schedule σ) (P : σ → Prop) : Prop where
  next : ∀ t rest s, m.ready s = t :: rest → P s → P (m.turn t (m.setReady s rest))
  wake : ∀ ts s, P s → P (m.wake ts s)

namespace Serves

variable {P : σ → Prop} (h : m.Serves P)

include h

theorem turns (fuel : Nat) {s : σ} (hs : P s) : P (m.turns fuel s) := by
  induction fuel generalizing s with
  | zero => exact hs
  | succ fuel ih =>
      unfold Schedule.turns
      split
      · exact hs
      · next t rest hready =>
          apply ih
          exact h.next t rest s hready hs

theorem settle {s : σ} (hs : P s) : P (m.settle s) := h.turns patience hs

theorem expire {s : σ} (hs : P s) : P (m.expire s) := h.settle (h.wake _ s hs)

variable (limit : Nat) (hclock : ∀ n s, n ≤ limit → P s → P (m.setNow s (max n (m.now s))))
  (hlimit : ∀ s, P s → P (m.setNow s limit))

include hclock hlimit

theorem advanceTo (fuel : Nat) {s : σ} (hs : P s) : P (m.advanceTo limit fuel s) := by
  induction fuel generalizing s with
  | zero => exact hlimit s hs
  | succ fuel ih =>
      unfold Schedule.advanceTo
      split
      · exact hlimit s hs
      · next d hd =>
          apply ih
          apply h.expire
          exact hclock d s (nextDeadline_le hd) hs

end Serves

/-- A property that turns of tasks and changes of the queue keep. -/
structure Keeps (m : Schedule σ) (P : σ → Prop) : Prop where
  turn : ∀ t s, P s → P (m.turn t s)
  ready : ∀ r s, P s → P (m.setReady s r)

namespace Keeps

variable {P : σ → Prop} (h : m.Keeps P)

include h

theorem serves : m.Serves P where
  next t rest s _ hs := h.turn t _ (h.ready rest s hs)
  wake _ s hs := h.ready _ s hs

theorem settle {s : σ} (hs : P s) : P (m.settle s) := h.serves.settle hs

variable (limit : Nat) (hclock : ∀ n s, n ≤ limit → P s → P (m.setNow s (max n (m.now s))))
  (hlimit : ∀ s, P s → P (m.setNow s limit))

include hclock hlimit

theorem advanceTo (fuel : Nat) {s : σ} (hs : P s) : P (m.advanceTo limit fuel s) :=
  h.serves.advanceTo limit hclock hlimit fuel hs

end Keeps

end Schedule

end PeerRpc
