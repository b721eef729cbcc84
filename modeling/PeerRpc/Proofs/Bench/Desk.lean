import Mathlib.Logic.Function.Basic
import Mathlib.Logic.Relation
import PeerRpc.Proofs.Bench.Basic

/-!
# PeerRpc.Proofs.Bench.Desk -- one stream end and its tasks

A `Desk` is one end of a stream channel with the tasks on it and the account of what has happened
there, taken out of the bench that it is part of. `Desk.Step` lists all that can happen at it: what
its own tasks do, and what is done to its pipes from elsewhere, of which nothing is assumed but that
octets which arrive are appended. So whatever every step keeps holds of an end on every bench, next
to another end or alone.

Two kinds of step are named by parameters, so that a run may do without them: that what the end
writes is no longer taken (`severs`), and that a look at what arrives fails (`spoils`).
-/

namespace PeerRpc

namespace Bench

/-- The stage at which a task is that has just been started. -/
def Job.onStream (job : Job) : Stream.Work := job.work.onStream

/-- What has happened at an end. -/
structure Account where
  jobs : Ticket → Option Job
  carried : Bytes
  arrived : Bytes
  obtained : List (Ticket × Nat)
  closers : List (Ticket × Nat)
  stalled : List (Ticket × Nat)

/-- An end of a stream channel with its tasks and their account. -/
structure Desk extends Account where
  fin : Stream.End
  now : Nat
  /-- Whether the end was let go of. -/
  gone : Bool
  works : Ticket → Option Stream.Work
  /-- What the tasks that are done came to, the last first. -/
  results : List (Ticket × Result)

namespace Desk

open Function (update)

/-- What is known of a ticket after a change to what is known of one. -/
theorem update_eq_some {α : Type} {f : Ticket → Option α} {t u : Ticket} {o : Option α} {a : α} :
    update f t o u = some a ↔ u = t ∧ o = some a ∨ u ≠ t ∧ f u = some a := by
  by_cases h : u = t
  · subst h
    simp
  · simp [h]

/-- The desk of an end that has just been made. -/
def ofLimits (l : ChannelLimits) (capacity : Nat) : Desk where
  jobs _ := none
  carried := []
  arrived := []
  obtained := []
  closers := []
  stalled := []
  fin := .ofLimits l capacity
  now := 0
  gone := false
  works _ := none
  results := []

/-- The messages that have been received, the first first. -/
def received (d : Desk) : List Bytes := d.results.reverse.filterMap fun x => x.2.message?

/-- The desk after a task has taken its turn. -/
def tried (d : Desk) (t : Ticket) (w : Stream.Work) : Desk :=
  let e := (w.attempt d.now t d.fin).state
  { d with
    fin := e
    works := update d.works t (w.next? d.now t d.fin)
    results := ((w.result? d.now t d.fin).map fun r => (t, r)).toList ++ d.results
    carried := d.carried ++ e.outbound.content.drop d.fin.outbound.content.length
    obtained := d.obtained ++ if w.obtains t d.fin then [(t, d.now)] else []
    closers := d.closers ++ if w.marks d.fin then [(t, d.now)] else []
    stalled := d.stalled ++
      if (w.result? d.now t d.fin).isSome && e.isStalled then [(t, d.now)] else [] }

section tried

variable {d : Desk} {t : Ticket} {w : Stream.Work}

theorem obtained_of_obtains (h : w.obtains t d.fin = true) :
    (d.tried t w).obtained = d.obtained ++ [(t, d.now)] := by
  show d.obtained ++ (if _ then _ else _) = _
  rw [if_pos h]

theorem obtained_of_not (h : w.obtains t d.fin = false) :
    (d.tried t w).obtained = d.obtained := by
  show d.obtained ++ (if _ then _ else _) = _
  rw [h]
  exact List.append_nil _

theorem closers_of_marks (h : w.marks d.fin = true) :
    (d.tried t w).closers = d.closers ++ [(t, d.now)] := by
  show d.closers ++ (if _ then _ else _) = _
  rw [if_pos h]

theorem closers_of_not (h : w.marks d.fin = false) : (d.tried t w).closers = d.closers := by
  show d.closers ++ (if _ then _ else _) = _
  rw [h]
  exact List.append_nil _

theorem mem_stalled_tried (hdone : (w.result? d.now t d.fin).isSome = true)
    (hstalled : (d.tried t w).fin.isStalled = true) : (t, d.now) ∈ (d.tried t w).stalled := by
  show _ ∈ d.stalled ++ (if _ then _ else _)
  have hstalled' : (w.attempt d.now t d.fin).state.isStalled = true := hstalled
  rw [hdone, hstalled']
  exact List.mem_append_right _ List.mem_cons_self

theorem obtained_tried (d : Desk) (t : Ticket) (w : Stream.Work) :
    d.obtained <+: (d.tried t w).obtained := List.prefix_append _ _

theorem stalled_tried (d : Desk) (t : Ticket) (w : Stream.Work) :
    d.stalled <+: (d.tried t w).stalled := List.prefix_append _ _

theorem mem_results_tried {x : Ticket × Result} :
    x ∈ (d.tried t w).results ↔
      x.1 = t ∧ w.result? d.now t d.fin = some x.2 ∨ x ∈ d.results := by
  show x ∈ ((w.result? d.now t d.fin).map fun r => (t, r)).toList ++ d.results ↔ _
  rw [List.mem_append, Option.mem_toList, Option.map_eq_some_iff]
  refine or_congr_left ⟨?_, ?_⟩
  · rintro ⟨r, hr, rfl⟩
    exact ⟨rfl, hr⟩
  · rintro ⟨rfl, hr⟩
    exact ⟨x.2, hr, rfl⟩

/-- What a turn does to the octets of its end. -/
theorem tried_octets {added moved : Bytes}
    (moves : Stream.Moves d.fin (w.attempt d.now t d.fin).state added moved) :
    (d.tried t w).carried ++ (d.tried t w).fin.output = d.carried ++ d.fin.output ++ added := by
  have hmoved : (w.attempt d.now t d.fin).state.outbound.content.drop
      d.fin.outbound.content.length = moved := by
    rw [moves.pipe.content, List.drop_left]
  show d.carried ++ (w.attempt d.now t d.fin).state.outbound.content.drop
    d.fin.outbound.content.length ++ (w.attempt d.now t d.fin).state.output = _
  rw [hmoved, List.append_assoc, moves.output, List.append_assoc]

end tried

/-- What can happen at a desk. -/
inductive Step (severs spoils : Prop) (d : Desk) : Desk → Prop
  /-- A task starts. -/
  | begins (t : Ticket) (job : Job) (fresh : d.jobs t = none) (stays : d.gone = false) :
      Step severs spoils d
        { d with jobs := update d.jobs t (some job), works := update d.works t (some job.onStream) }
  /-- A task takes its turn. -/
  | tries (t : Ticket) (w : Stream.Work) (runs : d.works t = some w) :
      Step severs spoils d (d.tried t w)
  /-- A task is taken back. -/
  | leaves (t : Ticket) (w : Stream.Work) (runs : d.works t = some w) :
      Step severs spoils d
        { d with fin := (w.abandon t d.fin).1, works := update d.works t none }
  /-- The end, on which there is no task, is let go of. -/
  | falls (idle : ∀ t, d.works t = none) :
      Step severs spoils d { d with fin := d.fin.drop.1, gone := true }
  /-- Others use the pipes. -/
  | around (e : Stream.End) (bs : Bytes) (h : Stream.Around d.fin e bs) :
      Step severs spoils d { d with fin := e, arrived := d.arrived ++ bs }
  /-- What the end writes is no longer taken. -/
  | severs (h : severs) :
      Step severs spoils d { d with fin := { d.fin with outbound := d.fin.outbound.closeRead.1 } }
  /-- The next look at what arrives fails. -/
  | spoils (h : spoils) (text : String) :
      Step severs spoils d { d with fin := { d.fin with fault := some text } }
  /-- Time passes. -/
  | waits (ms : Nat) : Step severs spoils d { d with now := d.now + ms }

/-- Some steps. -/
abbrev Steps (severs spoils : Prop) : Desk → Desk → Prop :=
  Relation.ReflTransGen (Step severs spoils)

/-- **What every run of an end keeps.** -/
theorem Steps.induction {severs spoils : Prop} {P : Desk → Prop} {d d' : Desk}
    (h : Steps severs spoils d d') (hstep : ∀ d d', Step severs spoils d d' → P d → P d')
    (h₀ : P d) : P d' := by
  induction h with
  | refl => exact h₀
  | tail _ hlast ih => exact hstep _ _ hlast ih

end Desk

end Bench

end PeerRpc
