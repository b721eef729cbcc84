import PeerRpc.Proofs.Bench.Desks
import PeerRpc.Proofs.Memory.Passage

/-!
# PeerRpc.Proofs.Bench.Table -- a memory pair and its tasks

A `Table` is a memory pair with the tasks on its two ends, taken out of the bench that it is part of.
`Table.Step` lists all that can happen at it: a task starts, tries once, is taken back, or an end is
let go of. Each move on a bench is at most one of the former (`Table.Moves`) with at most one end let
go of behind it (`Journal.moves_table`).
-/

namespace PeerRpc

/-- What a try on one kind of channel has come to, seen from a task. -/
theorem Link.progress_lift {χ ω ρ Ω W R : Type} (put : χ → Link) (wrap : ω → Ω) (go : Ω → W)
    (result : ρ → R) (r : Try χ ω ρ) : ((Link.lift put wrap r).map go result).progress =
      (r.map (fun op => go (wrap op)) result).progress := by
  obtain ⟨state, wakes, progress⟩ := r
  cases progress <;> rfl

namespace Bench

variable {b b' b₁ : Bench} {s u : Side} {t : Ticket} {p p' : Memory.Pair}

/-! ## Tries -/

namespace Work

/-- One try of a task on a memory pair. -/
def tryPair (s : Side) (t : Ticket) (p : Memory.Pair) : Work → Try Memory.Pair Work Result
  | send op =>
    (Memory.send s t op.onPair p).map (fun op => send (.memory op)) fun r => r.map fun () => none
  | recv op => (Memory.recv s t op.onPair p).map (fun op => recv (.memory op)) fun r => r.map some
  | close _ => .done p.close.1 (.ok none) p.close.2

/-- A memory pair after a task is taken back. -/
def quit (s : Side) (t : Ticket) (p : Memory.Pair) : Work → Memory.Pair
  | send _ => (Memory.abandonSend s t p).1
  | recv op => (Memory.abandonRecv s t op.onPair p).1
  | close _ => p

theorem tryOn_memory (now : Nat) (s : Side) (t : Ticket) (p : Memory.Pair) (w : Work) :
    (w.tryOn now s t (.memory p)).state = .memory (w.tryPair s t p).state ∧
      (w.tryOn now s t (.memory p)).progress = (w.tryPair s t p).progress := by
  cases w with
  | send op => cases op <;> exact ⟨rfl, Link.progress_lift ..⟩
  | recv op => cases op <;> exact ⟨rfl, Link.progress_lift ..⟩
  | close op => exact ⟨rfl, rfl⟩

end Work

theorem abandon_memory (h : b.link = .memory p) (t : Ticket) (task : Task) : ∃ wakes,
    abandon t task b = remove t task.side
      (wake wakes { b with link := .memory (task.work.quit task.side t p) }) := by
  unfold abandon
  rw [h]
  cases task.work with
  | send op => exact ⟨_, rfl⟩
  | recv op => cases op <;> exact ⟨_, rfl⟩
  | close op => exact ⟨_, rfl⟩

/-! ## Tables -/

/-- A memory pair with its tasks and their account. -/
structure Table where
  pair : Memory.Pair
  doing : Side → Ticket → Option Work
  /-- What the tasks that are done came to, the last first. -/
  finished : List (Ticket × Result)
  /-- The ends that were let go of. -/
  gone : List Side
  jobs : Side → Ticket → Option Job
  /-- The tasks that had come and gone when a task was started. -/
  earlier : Ticket → Ticket → Prop

namespace Table

variable {d d' : Table} {α : Type}

/-- What is known of the tasks on each end after a change to what is known of one. -/
def assign (f : Side → Ticket → Option α) (s : Side) (t : Ticket) (o : Option α) :
    Side → Ticket → Option α :=
  fun u v => if u = s ∧ v = t then o else f u v

@[simp] theorem assign_self (f : Side → Ticket → Option α) (s : Side) (t : Ticket) (o : Option α) :
    assign f s t o s t = o := if_pos ⟨rfl, rfl⟩

theorem assign_of_ne {f : Side → Ticket → Option α} {v : Ticket} (o : Option α)
    (h : u ≠ s ∨ v ≠ t) : assign f s t o u v = f u v := by
  refine if_neg fun hno => ?_
  rcases h with h | h
  · exact h hno.1
  · exact h hno.2

/-- What differs from what was known in one place only. -/
theorem eq_assign {f g : Side → Ticket → Option α} {o : Option α} (hself : g s t = o)
    (hside : ∀ u, u ≠ s → g u t = f u t) (hrest : ∀ u v, v ≠ t → g u v = f u v) :
    g = assign f s t o := by
  funext u v
  by_cases hv : v = t
  · subst hv
    by_cases hu : u = s
    · rw [hu, assign_self, hself]
    · rw [assign_of_ne _ (Or.inl hu), hside u hu]
  · rw [assign_of_ne _ (Or.inr hv), hrest u v hv]

theorem assign_eq_some {f : Side → Ticket → Option α} {v : Ticket} {o : Option α} {a : α} :
    assign f s t o u v = some a ↔
      (u = s ∧ v = t) ∧ o = some a ∨ (u ≠ s ∨ v ≠ t) ∧ f u v = some a := by
  unfold assign
  by_cases h : u = s ∧ v = t
  · simp [h]
  · rw [if_neg h]
    rw [not_and_or] at h
    simp [h]
    tauto

/-- The table at which no task has been started. -/
def ofLimits (l : ChannelLimits) : Table where
  pair := .ofLimits l
  doing _ _ := none
  finished := []
  gone := []
  jobs _ _ := none
  earlier _ _ := False

/-- The messages that tasks on an end have received, the first first. -/
def received (d : Table) (s : Side) : List Bytes :=
  (d.finished.filter fun x => (d.jobs s x.1).isSome).reverse.filterMap fun x => x.2.message?

/-- The table after a task has tried once. -/
def tried (d : Table) (s : Side) (t : Ticket) (w : Work) : Table :=
  { d with
    pair := (w.tryPair s t d.pair).state
    doing := assign d.doing s t (w.tryPair s t d.pair).progress.pending?
    finished := ((w.tryPair s t d.pair).progress.done?.map fun r => (t, r)).toList ++ d.finished }

/-- A task has come and gone. -/
def IsOver (d : Table) (t : Ticket) : Prop :=
  (∃ s, (d.jobs s t).isSome = true) ∧ ∀ s, d.doing s t = none

/-- The table after a task has been started. -/
def begun (d : Table) (s : Side) (t : Ticket) (job : Job) : Table :=
  { d with
    doing := assign d.doing s t (some job.work)
    jobs := assign d.jobs s t (some job)
    earlier := Function.update d.earlier t d.IsOver }

/-- The table after a task has been taken back. -/
def left (d : Table) (s : Side) (t : Ticket) (w : Work) : Table :=
  { d with pair := w.quit s t d.pair, doing := assign d.doing s t none }

/-- The table after an end has been let go of. -/
def fallen (d : Table) (s : Side) : Table :=
  { d with pair := (d.pair.drop s).1, gone := s :: d.gone }

/-- What can happen at a table. -/
inductive Step (d : Table) : Table → Prop
  /-- A task starts. -/
  | begins (s : Side) (t : Ticket) (job : Job) (new : ∀ u, d.jobs u t = none) :
      Step d (d.begun s t job)
  /-- A task takes its turn. -/
  | tries (s : Side) (t : Ticket) (w : Work) (runs : d.doing s t = some w) : Step d (d.tried s t w)
  /-- A task is taken back. -/
  | leaves (s : Side) (t : Ticket) (w : Work) (runs : d.doing s t = some w) : Step d (d.left s t w)
  /-- An end is let go of. -/
  | falls (s : Side) : Step d (d.fallen s)

/-- Some steps. -/
abbrev Steps : Table → Table → Prop := Relation.ReflTransGen Step

/-- What one move does at a table at first, before an end is let go of for want of tasks. Here
`acting s` is the task on an end that takes its turn, unless it is to be taken back. -/
inductive Moves (d : Table) (acting : Side → Option (Ticket × Work)) : Table → Prop
  | rests (quiet : ∀ s, acting s = none) : Moves d acting d
  | begins (s : Side) (t : Ticket) (job : Job) (new : ∀ u, d.jobs u t = none)
      (quiet : ∀ s, acting s = none) : Moves d acting (d.begun s t job)
  | tries (s : Side) (t : Ticket) (w : Work) (runs : d.doing s t = some w)
      (acts : acting s = some (t, w)) (others : ∀ u, u ≠ s → acting u = none) :
      Moves d acting (d.tried s t w)
  | leaves (s : Side) (t : Ticket) (w : Work) (runs : d.doing s t = some w)
      (quiet : ∀ s, acting s = none) : Moves d acting (d.left s t w)

/-- Two tables of which the second is the first, or the first without an end. -/
def After (d d' : Table) : Prop := d' = d ∨ ∃ s, d' = d.fallen s

/-- Letting go of an end is no result of a task. -/
theorem After.finished (h : After d d') : d'.finished = d.finished := by
  rcases h with rfl | ⟨s, rfl⟩
  · rfl
  · rfl

theorem After.received (h : After d d') (s : Side) : d'.received s = d.received s := by
  rcases h with rfl | ⟨u, rfl⟩
  · rfl
  · rfl

theorem After.steps (h : After d d') : Steps d d' := by
  rcases h with rfl | ⟨s, rfl⟩
  · exact .refl
  · exact .single (.falls s)

theorem Moves.steps {acting : Side → Option (Ticket × Work)} (h : Moves d acting d') :
    Steps d d' := by
  cases h with
  | rests => exact .refl
  | begins s t job new => exact .single (.begins s t job new)
  | tries s t w runs => exact .single (.tries s t w runs)
  | leaves s t w runs => exact .single (.leaves s t w runs)

end Table

/-! ## The table of a bench -/

/-- The pair that joins the two ends. -/
def pair (b : Bench) : Memory.Pair :=
  match b.link with
  | .memory p => p
  | _ => default

theorem pair_of_link (h : b.link = .memory p) : b.pair = p := by
  unfold pair
  rw [h]

/-- The table of a bench, with the account of what has happened there. -/
def table (b : Bench) (jobs : Side → Ticket → Option Job) (earlier : Ticket → Ticket → Prop) :
    Table where
  pair := b.pair
  doing := b.doing?
  finished := b.finished
  gone := b.gone
  jobs := jobs
  earlier := earlier

theorem doing?_ne {x : Ticket × Task} (hx : (b.tasks.find? fun x => x.1 = t) = some x)
    (hs : s ≠ x.2.side) : b.doing? s t = none := by
  rw [doing?_of_find? hx]
  exact if_neg (Ne.symm hs)

/-- A task that is no more is on no end. -/
theorem doing?_without {x : Ticket × Task} (hx : (b.tasks.find? fun x => x.1 = t) = some x) :
    doing? { b with tasks := b.tasks.filter fun x => x.1 ≠ t } =
      Table.assign b.doing? x.2.side t none := by
  refine Table.eq_assign ?_ (fun s hs => ?_) fun s v hv => ?_
  · rw [doing?_filter, if_pos rfl]
  · rw [doing?_filter, if_pos rfl, doing?_ne hx hs]
  · rw [doing?_filter, if_neg hv]

/-- A task that goes on stays on its end. -/
theorem doing?_goesOn {x : Ticket × Task} (hx : (b.tasks.find? fun x => x.1 = t) = some x)
    (w : Work) : (b.setWork t w).doing? = Table.assign b.doing? x.2.side t (some w) := by
  refine Table.eq_assign ?_ (fun s hs => ?_) fun s v hv => ?_
  · rw [doing?_setWork, if_pos rfl, doing?_of_find? hx, if_pos rfl]
    rfl
  · rw [doing?_setWork, if_pos rfl, doing?_ne hx hs]
    rfl
  · rw [doing?_setWork, if_neg hv]

section

variable (jobs : Side → Ticket → Option Job) (earlier : Ticket → Ticket → Prop)

/-- **Letting go of an end**, if it is neither held nor used. -/
theorem table_release (h : b.link = .memory p) (u : Side) :
    (∃ p', (b.release u).link = .memory p') ∧
      (b.table jobs earlier).After ((b.release u).table jobs earlier) := by
  by_cases hidle : b.Idle u
  · rw [release_of_idle hidle]
    have hdrop : (b.link.drop u).1 = .memory (p.drop u).1 := by rw [h]; rfl
    refine ⟨⟨_, hdrop⟩, Or.inr ⟨u, ?_⟩⟩
    have hpair : (b.table jobs earlier).pair = p := pair_of_link h
    unfold Table.fallen
    rw [hpair]
    unfold table
    rw [pair_of_link hdrop]
    rfl
  · have hsame : b.release u = b := if_pos (not_not.mp hidle)
    rw [hsame]
    exact ⟨⟨p, h⟩, Or.inl rfl⟩

/-- The table of a bench on which a task has tried once. -/
theorem table_tried {x : Ticket × Task} (h : b.link = .memory p)
    (hx : (b.tasks.find? fun x => x.1 = t) = some x) (haborted : x.2.aborted = false) : ∃ b₁ p₁,
    b₁.link = .memory p₁ ∧
      b₁.table jobs earlier = (b.table jobs earlier).tried x.2.side t x.2.work ∧
      (b.turn t = b₁ ∨ b.turn t = b₁.release x.2.side) := by
  obtain ⟨hstate, hprogress⟩ := Work.tryOn_memory b.now x.2.side t p x.2.work
  have hpair : (b.table jobs earlier).pair = p := pair_of_link h
  rw [turn_of_acting hx haborted, h]
  unfold Table.tried
  rw [hpair]
  generalize x.2.work.tryOn b.now x.2.side t (.memory p) = r at hstate hprogress ⊢
  generalize x.2.work.tryPair x.2.side t p = r' at hstate hprogress ⊢
  obtain ⟨l, wakes, progress⟩ := r
  obtain rfl : l = .memory r'.state := hstate
  obtain rfl : progress = r'.progress := hprogress
  unfold proceed
  dsimp only
  cases r'.progress with
  | pending w =>
      refine ⟨_, r'.state, ?_, ?_, Or.inl rfl⟩
      · rfl
      · unfold table
        rw [doing?_goesOn (b := wake wakes { b with link := .memory r'.state }) hx]
        rfl
  | done r =>
      refine ⟨{ wake wakes { b with link := .memory r'.state } with
          finished := (t, r) :: b.finished
          tasks := b.tasks.filter fun x => x.1 ≠ t }, r'.state, rfl, ?_, Or.inr rfl⟩
      have hdoing := doing?_without hx
      unfold table
      exact congrArg (fun doing => Table.mk _ doing _ _ _ _) hdoing

end

/-! ## Journals -/

namespace Journal

variable {j : Journal} {m : Move}

/-- The tasks that had come and gone when the task with a ticket was started: those that had been
started before, and were done or had been taken back. -/
def earlier (j : Journal) (t u : Ticket) : Prop :=
  u < t ∧ (∃ s, (j.job? s u).isSome = true) ∧
    ∃ m, j.past[t]? = some m ∧ m.started?.isSome = true ∧ ∀ s, m.before.doing? s u = none

/-- The table of a bench with its past. -/
def table (j : Journal) : Table := j.bench.table j.job? j.earlier

theorem earlier_length (t : Ticket) : ¬j.earlier j.past.length t := by
  rintro ⟨-, -, m, hm, -⟩
  rw [List.getElem?_eq_none (Nat.le_refl _)] at hm
  cases hm

/-- A task that was started stays behind the same tasks. -/
theorem earlier_move_of_ne (h : t ≠ j.past.length) : (j.move m).earlier t = j.earlier t := by
  funext u
  have hpast : (j.past ++ [j.moment m])[t]? = j.past[t]? := by
    rcases Nat.lt_or_gt_of_ne h with hlt | hgt
    · exact List.getElem?_append_left hlt
    · rw [List.getElem?_eq_none (Nat.le_of_lt hgt), List.getElem?_eq_none]
      rw [List.length_append]
      exact hgt
  show (u < t ∧ (∃ s, ((j.move m).job? s u).isSome = true) ∧
    ∃ m', (j.past ++ [j.moment m])[t]? = some m' ∧ _) = _
  rw [hpast]
  refine propext (and_congr_right fun hut => ?_)
  refine and_congr_left fun ⟨m', hm', _⟩ => ?_
  have hlt : t < j.past.length := by
    obtain ⟨hlt, -⟩ := List.getElem?_eq_some_iff.mp hm'
    exact hlt
  exact exists_congr fun s => by rw [job?_move_of_lt (Nat.lt_trans hut hlt)]

/-- A move that starts no task changes nothing about those that were started. -/
theorem account_move_of_none (h : (j.moment m).started? = none) :
    (j.move m).job? = j.job? ∧ (j.move m).earlier = j.earlier := by
  refine ⟨funext fun s => job?_move_of_none (by rw [h]; rfl), funext fun t => ?_⟩
  by_cases ht : t = j.past.length
  · subst ht
    funext u
    refine propext (iff_of_false ?_ (earlier_length u))
    rintro ⟨-, -, m', hm', hstarted, -⟩
    have hlast : (j.past ++ [j.moment m])[j.past.length]? = some (j.moment m) :=
      List.getElem?_concat_length
    obtain rfl : j.moment m = m' := Option.some.inj (hlast.symm.trans hm')
    rw [h] at hstarted
    cases hstarted
  · exact earlier_move_of_ne ht

/-- A task that starts is behind those that have come and gone. -/
theorem earlier_move_of_started (h : (j.moment m).started?.isSome = true) :
    (j.move m).earlier = Function.update j.earlier j.past.length j.table.IsOver := by
  funext t
  by_cases ht : t = j.past.length
  · subst ht
    rw [Function.update_self]
    funext u
    refine propext ⟨?_, ?_⟩
    · rintro ⟨hu, ⟨s, hs⟩, m', hm', -, hgone⟩
      have hlast : (j.past ++ [j.moment m])[j.past.length]? = some (j.moment m) :=
        List.getElem?_concat_length
      obtain rfl : j.moment m = m' := Option.some.inj (hlast.symm.trans hm')
      rw [job?_move_of_lt hu] at hs
      exact ⟨⟨s, hs⟩, hgone⟩
    · rintro ⟨⟨s, hs⟩, hgone⟩
      have hu := lt_of_job? hs
      refine ⟨hu, ⟨s, ?_⟩, j.moment m, List.getElem?_concat_length, h, hgone⟩
      rw [job?_move_of_lt hu]
      exact hs
  · rw [Function.update_of_ne ht, earlier_move_of_ne ht]

theorem jobs_start (s : Side) {job : Job} (hheld : j.bench.held.contains s = true) :
    (j.move (.start s job)).job? = Table.assign j.job? s j.past.length (some job) := by
  refine Table.eq_assign ?_ (fun u hu => ?_) fun u v hv => ?_
  all_goals rw [job?_start hheld, Function.update_apply]
  · rw [if_pos rfl, if_pos rfl]
  · rw [if_pos rfl, if_neg (Ne.symm hu), job?_length]
  · rw [if_neg hv]

theorem doing?_move_start (h : j.Tidy) (s : Side) {job : Job}
    (hheld : j.bench.held.contains s = true) :
    (j.move (.start s job)).bench.doing? =
      Table.assign j.bench.doing? s j.past.length (some job.work) := by
  have hstart (u : Side) (v : Ticket) : (j.move (.start s job)).bench.doing? u v =
      if v = j.past.length then if s = u then some job.work else none
      else j.bench.doing? u v := by
    rw [bench_start hheld]
    exact doing?_start h.ne_length job.work
  refine Table.eq_assign ?_ (fun u hu => ?_) fun u v hv => ?_
  all_goals rw [hstart]
  · rw [if_pos rfl, if_pos rfl]
  · rw [if_pos rfl, if_neg (Ne.symm hu)]
    unfold doing?
    rw [List.find?_eq_none.mpr fun x hx => by simpa using h.ne_length x hx]
    rfl
  · rw [if_neg hv]

/-- **A start** of a task. -/
theorem moves_start (h : j.Tidy) (s : Side) (job : Job) :
    (j.move (.start s job)).bench.link = j.bench.link ∧
      j.table.Moves (j.moment (.start s job)).acting? (j.move (.start s job)).table := by
  by_cases hheld : j.bench.held.contains s = true
  · have hstarted : (j.moment (.start s job)).started? = some (s, job) := if_pos hheld
    have hearlier := earlier_move_of_started (j := j) (m := .start s job) (by rw [hstarted]; rfl)
    have htable : (j.move (.start s job)).table = j.table.begun s j.past.length job := by
      unfold table Bench.table
      rw [jobs_start s hheld, doing?_move_start h s hheld, hearlier, bench_start hheld]
      rfl
    refine ⟨by rw [bench_start hheld]; rfl, ?_⟩
    rw [htable]
    exact .begins s _ job (fun u => job?_length) fun u => rfl
  · have hbench : (j.move (.start s job)).bench = j.bench := if_neg hheld
    have hstarted : (j.moment (.start s job)).started? = none := if_neg hheld
    obtain ⟨hjobs, hearlier⟩ := account_move_of_none hstarted
    refine ⟨by rw [hbench], ?_⟩
    have hsame : (j.move (.start s job)).table = j.table := by
      unfold table
      rw [hbench, hjobs, hearlier]
    rw [hsame]
    exact .rests fun u => rfl

/-- **A turn** of a task that is not to be taken back: it tries, and then its end may be let go
of. -/
theorem table_turn {w : Work} (h : j.bench.link = .memory p) (hw : j.bench.acting? s t = some w) :
    (∃ p', (j.move (.turn t)).bench.link = .memory p') ∧
      (j.table.tried s t w).After (j.move (.turn t)).table := by
  obtain ⟨x, hx, rfl, haborted, rfl⟩ := exists_of_acting? hw
  obtain ⟨hjobs, hearlier⟩ := account_move_of_none (j := j) (m := .turn t) rfl
  obtain ⟨b₁, p₁, hlink, htried, hor⟩ := table_tried j.job? j.earlier h hx haborted
  have htable : (j.move (.turn t)).table = (j.bench.turn t).table j.job? j.earlier := by
    unfold table
    rw [hjobs, hearlier]
    rfl
  have htried' : b₁.table j.job? j.earlier = j.table.tried x.2.side t x.2.work := htried
  rw [htable, ← htried']
  show (∃ p', (j.bench.turn t).link = .memory p') ∧ _
  rcases hor with hor | hor
  · rw [hor]
    exact ⟨⟨p₁, hlink⟩, Or.inl rfl⟩
  · rw [hor]
    exact table_release _ _ hlink x.2.side

/-- **A task that is taken back** at its turn. -/
theorem table_aborted {x : Ticket × Task} (h : j.bench.link = .memory p)
    (hx : (j.bench.tasks.find? fun x => x.1 = t) = some x) (haborted : x.2.aborted = true) :
    (∃ p', (j.move (.turn t)).bench.link = .memory p') ∧
      (j.table.left x.2.side t x.2.work).After (j.move (.turn t)).table := by
  obtain ⟨hjobs, hearlier⟩ := account_move_of_none (j := j) (m := .turn t) rfl
  obtain ⟨wakes, habandon⟩ := abandon_memory h t x.2
  have hturn : (j.move (.turn t)).bench = _ := (turn_of_aborted hx haborted).trans habandon
  have hpair : j.table.pair = p := pair_of_link h
  -- the bench before its end is let go of for want of tasks
  generalize hb₁ : ({ wake wakes { j.bench with link := .memory (x.2.work.quit x.2.side t p) } with
    tasks := j.bench.tasks.filter fun x => x.1 ≠ t } : Bench) = b₁
  have hlink : b₁.link = .memory (x.2.work.quit x.2.side t p) := by rw [← hb₁]; rfl
  have hleft : b₁.table j.job? j.earlier = j.table.left x.2.side t x.2.work := by
    unfold Table.left
    rw [← hb₁, hpair]
    exact congrArg (fun doing => Table.mk _ doing _ _ _ _) (doing?_without hx)
  have hbench : (j.move (.turn t)).bench = b₁.release x.2.side := by
    rw [hturn, ← hb₁]
    rfl
  have htable : (j.move (.turn t)).table = (b₁.release x.2.side).table j.job? j.earlier := by
    unfold table
    rw [hjobs, hearlier, hbench]
  rw [htable, hbench, ← hleft]
  exact table_release _ _ hlink x.2.side

/-- A move that changes nothing at the table. -/
theorem table_same (link : (j.move m).bench.link = j.bench.link)
    (doing : (j.move m).bench.doing? = j.bench.doing?)
    (finished : (j.move m).bench.finished = j.bench.finished)
    (gone : (j.move m).bench.gone = j.bench.gone) (started : (j.moment m).started? = none) :
    (j.move m).table = j.table := by
  obtain ⟨hjobs, hearlier⟩ := account_move_of_none started
  unfold table Bench.table Bench.pair
  rw [hjobs, hearlier, link, doing, finished, gone]

/-- A task that is looked up acts on its own end only. -/
theorem moment_acting_of_find? {x : Ticket × Task}
    (hx : (j.bench.tasks.find? fun x => x.1 = t) = some x) (s : Side) :
    (j.moment (.turn t)).acting? s =
      if x.2.side = s ∧ x.2.aborted = false then some (t, x.2.work) else none := by
  show (j.bench.acting? s t).map _ = _
  rw [acting?_of_find? hx]
  split <;> rfl

/-- **A turn** of any task. -/
theorem moves_turn (hp : j.bench.link = .memory p) (t : Ticket) :
    (∃ p', (j.move (.turn t)).bench.link = .memory p') ∧
      ∃ d, j.table.Moves (j.moment (.turn t)).acting? d ∧ d.After (j.move (.turn t)).table := by
  cases hx : j.bench.tasks.find? fun x => x.1 = t with
  | none =>
      have hbench : (j.move (.turn t)).bench = j.bench := turn_of_none hx
      have hsame : (j.move (.turn t)).table = j.table := by
        apply table_same <;> first | rw [hbench] | rfl
      rw [hsame, hbench]
      refine ⟨⟨p, hp⟩, j.table, .rests fun s => moment_acting_of_none ?_, Or.inl rfl⟩
      unfold acting?
      rw [hx]
      rfl
  | some x =>
      have hacts := moment_acting_of_find? hx
      have hdoing : j.bench.doing? x.2.side t = some x.2.work := by
        rw [doing?_of_find? hx]
        exact if_pos rfl
      cases haborted : x.2.aborted with
      | true =>
          obtain ⟨hlink, hafter⟩ := table_aborted hp hx haborted
          refine ⟨hlink, _, .leaves x.2.side t x.2.work hdoing fun s => ?_, hafter⟩
          rw [hacts, haborted]
          exact if_neg fun hno => nomatch hno.2
      | false =>
          have hacting : j.bench.acting? x.2.side t = some x.2.work := by
            rw [acting?_of_find? hx]
            exact if_pos ⟨rfl, haborted⟩
          obtain ⟨hlink, hafter⟩ := table_turn hp hacting
          refine ⟨hlink, _, .tries x.2.side t x.2.work hdoing ?_ fun u hu => ?_, hafter⟩
          · rw [hacts]
            exact if_pos ⟨rfl, haborted⟩
          · rw [hacts]
            exact if_neg fun hno => hu hno.1.symm

/-- **A move** on a bench with a memory pair. -/
theorem moves_table (hp : j.bench.link = .memory p) (h : j.Tidy) (m : Move) :
    (∃ p', (j.move m).bench.link = .memory p') ∧
      ∃ d, j.table.Moves (j.moment m).acting? d ∧ d.After (j.move m).table := by
  have hsame {m : Move} (htable : (j.move m).table = j.table)
      (hquiet : ∀ s, (j.moment m).acting? s = none) :
      ∃ d, j.table.Moves (j.moment m).acting? d ∧ d.After (j.move m).table :=
    ⟨j.table, .rests hquiet, Or.inl htable⟩
  cases m with
  | start s job =>
      obtain ⟨hlink, hmoves⟩ := moves_start h s job
      exact ⟨⟨p, hlink.trans hp⟩, _, hmoves, Or.inl rfl⟩
  | turn t => exact moves_turn hp t
  | abort t =>
      have hdoing : (j.bench.abort t).doing? = j.bench.doing? :=
        funext fun s => funext fun v => doing?_abort
      exact ⟨⟨p, hp⟩, hsame (table_same (m := .abort t) rfl hdoing rfl rfl rfl) fun s => rfl⟩
  | letGo s =>
      obtain ⟨hjobs, hearlier⟩ := account_move_of_none (j := j) (m := .letGo s) rfl
      have hrelease := table_release j.job? j.earlier
        (b := { j.bench with held := j.bench.held.filter (· ≠ s) }) hp s
      have htable : (j.move (.letGo s)).table =
          (j.bench.letGo s).table j.job? j.earlier := by
        unfold table
        rw [hjobs, hearlier]
        rfl
      rw [htable]
      exact ⟨hrelease.1, j.table, .rests fun s => rfl, hrelease.2⟩
  | wait ms =>
      exact ⟨⟨p, hp⟩, hsame (table_same (m := .wait ms) rfl rfl rfl rfl rfl) fun s => rfl⟩
  | outside o =>
      have hbench : (j.move (.outside o)).bench = j.bench := by
        show j.bench.outside o = _
        unfold Bench.outside
        rw [hp]
      refine ⟨⟨p, by rw [hbench, hp]⟩, hsame ?_ fun s => rfl⟩
      apply table_same <;> first | rw [hbench] | rfl

end Journal

end Bench

end PeerRpc
