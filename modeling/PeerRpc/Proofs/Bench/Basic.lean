import Mathlib.Data.List.Induction
import PeerRpc.Proofs.Stream.Tasks

/-!
# PeerRpc.Proofs.Bench.Basic -- everything that can happen on a bench

A `Bench.Move` is one thing that happens on a bench: a task starts, takes its turn or is to be taken
back, an end is let go of, time passes, or, where the bench holds the other side of the pipes of the
only stream end, something happens there. Moves come in any order, and any task may take its turn at
any time, ready or not, so the runs of a bench are those under every schedule.

A `Bench.Journal` is a bench together with its past. A task is named by the place of its start in the
past. What has passed through the pipes, which tasks got the writer, and what they came to are read
off the past; statements about every run of a channel are statements about
`(Journal.ofLink l).run moves` for every list of moves.
-/

namespace PeerRpc

/-! ## Operations at stream ends -/

/-- What a send on a link is at a stream end. -/
def Link.Sending.onStream : Link.Sending → Stream.Sending
  | fresh msg => .fresh msg
  | stream op => op
  | memory _ => .writing .flushing

/-- What a receive on a link is at a stream end. -/
def Link.Receiving.onStream : Link.Receiving → Stream.Receiving
  | stream op => op
  | _ => .fresh

/-- What a close on a link is at a stream end. -/
def Link.Closing.onStream : Link.Closing → Stream.Closing
  | stream op => op
  | fresh => .fresh

namespace Bench

/-! ## Moves -/

/-- What a task is started for. -/
inductive Job where
  | send (msg : Bytes)
  | recv
  | close
  deriving DecidableEq

/-- A task that has just been started. -/
def Job.work : Job → Work
  | send msg => .send (.fresh msg)
  | recv => .recv .fresh
  | close => .close .fresh

/-- What happens on the other side of the pipes of a stream end. -/
inductive Outside where
  /-- Octets arrive, unless nothing arrives any more. -/
  | supply (bs : Bytes)
  /-- Nothing arrives any more. -/
  | finish
  /-- The next look for octets fails. -/
  | spoil (text : String)
  /-- Some octets are taken, and there is room for so many altogether. -/
  | serve (n capacity : Nat)
  /-- Nothing is taken any more. -/
  | sever

/-- The end after something has happened on the other side of its pipes, and who is woken. -/
def Outside.apply (e : Stream.End) : Outside → Stream.End × List Ticket
  | supply bs =>
    if e.inbound.cut then (e, [])
    else
      ({ e with inbound := { e.inbound with content := e.inbound.content ++ bs, reader := none } },
        e.inbound.reader.toList)
  | finish => ({ e with inbound := e.inbound.closeWrite.1 }, e.inbound.closeWrite.2)
  | spoil text => ({ e with fault := some text }, e.inbound.reader.toList)
  | serve n capacity =>
    ({ e with outbound := { e.outbound with
        capacity := capacity, content := e.outbound.content.drop n, writer := none } },
      e.outbound.writer.toList)
  | sever => ({ e with outbound := e.outbound.closeRead.1 }, e.outbound.closeRead.2)

/-- Something that happens on a bench. -/
inductive Move where
  /-- A task is started on an end that is held. -/
  | start (s : Side) (job : Job)
  /-- A task takes its turn. -/
  | turn (t : Ticket)
  /-- A task is to be taken back, at its next turn. -/
  | abort (t : Ticket)
  /-- An end is held no longer. -/
  | letGo (s : Side)
  /-- Milliseconds pass. -/
  | wait (ms : Nat)
  /-- Something happens on the other side of the pipes of the only stream end. -/
  | outside (o : Outside)

/-- The bench after something has happened on the other side of the pipes. -/
def outside (o : Outside) (b : Bench) : Bench :=
  match b.link with
  | .bare s e => wake (o.apply e).2 { b with link := .bare s (o.apply e).1 }
  | _ => b

/-- The bench after a move, which is the one with this number. -/
def move (n : Ticket) (b : Bench) : Move → Bench
  | .start s job => b.start n s job.work
  | .turn t => b.turn t
  | .abort t => b.abort t
  | .letGo s => b.letGo s
  | .wait ms => { b with now := b.now + ms }
  | .outside o => b.outside o

/-! ## What is to be seen on a bench -/

/-- The stream end of a side. -/
def endOf (b : Bench) (s : Side) : Stream.End := (b.link.streamEnd? s).getD default

/-- What a task on an end does at its turn, unless it is taken back. -/
def acting? (b : Bench) (s : Side) (t : Ticket) : Option Work :=
  (b.tasks.find? fun x => x.1 = t).bind fun x =>
    if x.2.side = s ∧ x.2.aborted = false then some x.2.work else none

/-- The message that a task has received. -/
def Result.message? : Result → Option Bytes
  | .ok msg? => msg?
  | .error _ => none

/-- What a task does at a stream end. -/
def Work.onStream : Work → Stream.Work
  | send op => .send op.onStream
  | recv op => .recv op.onStream
  | close op => .close op.onStream

/-! ## Journals -/

/-- A move with the bench before and after it. -/
structure Moment where
  before : Bench
  move : Move
  after : Bench

namespace Moment

/-- The task that starts. -/
def started? (m : Moment) : Option (Side × Job) :=
  match m.move with
  | .start s job => if m.before.held.contains s then some (s, job) else none
  | _ => none

/-- The task on an end that takes its turn, and what it does. -/
def acting? (m : Moment) (s : Side) : Option (Ticket × Work) :=
  match m.move with
  | .turn t => (m.before.acting? s t).map fun w => (t, w)
  | _ => none

/-- The octets that an end puts into its outbound pipe. -/
def carried (m : Moment) (s : Side) : Bytes :=
  (m.after.endOf s).outbound.content.drop (m.before.endOf s).outbound.content.length

/-- The octets that are put into the inbound pipe of an end. -/
def arrived (m : Moment) (s : Side) : Bytes :=
  (m.after.endOf s).inbound.content.drop (m.before.endOf s).inbound.content.length

end Moment

/-- A bench with its past, the first moment first. -/
structure Journal where
  bench : Bench
  past : List Moment := []

namespace Journal

/-- The journal of a bench that has just been set up with a link, both of whose ends are held. -/
def ofLink (l : Link) : Journal := { bench := { link := l, held := [.main, .ext] } }

/-- One more move. -/
def move (j : Journal) (m : Move) : Journal :=
  { bench := j.bench.move j.past.length m,
    past := j.past ++ [⟨j.bench, m, j.bench.move j.past.length m⟩] }

/-- Some more moves. -/
def run (j : Journal) (moves : List Move) : Journal := moves.foldl move j

/-- What the task with a ticket was started for, if it was started on this end. -/
def job? (j : Journal) (s : Side) (t : Ticket) : Option Job :=
  (j.past[t]?.bind Moment.started?).bind fun x => if x.1 = s then some x.2 else none

/-- What the tasks on an end came to, the last first. -/
def results (j : Journal) (s : Side) : List (Ticket × Result) :=
  j.bench.finished.filter fun x => (j.job? s x.1).isSome

/-- The messages that tasks on an end have received, the first first. -/
def received (j : Journal) (s : Side) : List Bytes :=
  (j.results s).reverse.filterMap fun x => x.2.message?

/-- All octets that an end has put into its outbound pipe. -/
def carried (j : Journal) (s : Side) : Bytes := j.past.flatMap fun m => m.carried s

/-- All octets that have been put into the inbound pipe of an end. -/
def arrived (j : Journal) (s : Side) : Bytes := j.past.flatMap fun m => m.arrived s

/-- The tasks on an end at whose turn something was the case, with the times of these turns. -/
def turns (j : Journal) (s : Side) (p : Moment → Ticket → Work → Bool) : List (Ticket × Nat) :=
  j.past.filterMap fun m =>
    (m.acting? s).bind fun x => if p m x.1 x.2 then some (x.1, m.before.now) else none

/-- The sends and closes on an end that have got the writer, the first first. -/
def obtained (j : Journal) (s : Side) : List (Ticket × Nat) :=
  j.turns s fun m t w => w.onStream.obtains t (m.before.endOf s)

/-- The closes that found their end open and so were the ones to close it. -/
def closers (j : Journal) (s : Side) : List (Ticket × Nat) :=
  j.turns s fun m _ w => w.onStream.marks (m.before.endOf s)

/-- The tasks that ended while their end had octets to write and no room for them in the pipe. -/
def stalled (j : Journal) (s : Side) : List (Ticket × Nat) :=
  j.turns s fun m t _ => (m.after.acting? s t).isNone && (m.after.endOf s).isStalled

/-! ## One more move -/

@[simp] theorem run_nil (j : Journal) : j.run [] = j := rfl

theorem run_append (xs ys : List Move) (j : Journal) : j.run (xs ++ ys) = (j.run xs).run ys := by
  simp only [run, List.foldl_append]

theorem run_concat (xs : List Move) (m : Move) (j : Journal) :
    j.run (xs ++ [m]) = (j.run xs).move m := by
  rw [run_append]
  rfl

/-- **What every run keeps.** A property that holds of a journal and that every move keeps, as long
as the move is allowed, holds after every list of allowed moves. -/
theorem run_induction {P : Journal → Prop} {allowed : Move → Prop} {j : Journal} (h₀ : P j)
    (hstep : ∀ j m, allowed m → P j → P (j.move m)) {moves : List Move}
    (hallowed : ∀ m ∈ moves, allowed m) : P (j.run moves) := by
  induction moves using List.reverseRecOn with
  | nil => exact h₀
  | append_singleton moves m ih =>
      rw [run_concat]
      refine hstep _ _ (hallowed m ?_) (ih fun m' hm' => hallowed m' ?_)
      · exact List.mem_append_right _ List.mem_cons_self
      · exact List.mem_append_left _ hm'

end Journal

/-! ## Tasks and ends come and go -/

/-- What a bench comes to without a task being started. Tasks end, ends are let go of, and an end goes
only if it is neither held nor used. -/
structure Kept (b b' : Bench) : Prop where
  tasks : ∀ x ∈ b'.tasks, ∃ y ∈ b.tasks, y.1 = x.1 ∧ y.2.side = x.2.side
  finished : ∀ x ∈ b'.finished, x ∈ b.finished ∨ ∃ y ∈ b.tasks, y.1 = x.1
  held : ∀ s ∈ b'.held, s ∈ b.held
  gone : ∀ s ∈ b'.gone, s ∈ b.gone ∨ s ∉ b'.held ∧ ∀ x ∈ b'.tasks, x.2.side ≠ s

namespace Kept

variable {b b' b'' : Bench} {s : Side} {t : Ticket}

/-- Neither the link nor the time nor the order of turns matters. -/
theorem of_eq (tasks : b'.tasks = b.tasks) (finished : b'.finished = b.finished)
    (held : b'.held = b.held) (gone : b'.gone = b.gone) : Kept b b' where
  tasks := by
    rw [tasks]
    exact fun x hx => ⟨x, hx, rfl, rfl⟩
  finished := by
    rw [finished]
    exact fun x hx => Or.inl hx
  held := by
    rw [held]
    exact fun s hs => hs
  gone := by
    rw [gone]
    exact fun s hs => Or.inl hs

/-- What tasks do may change, if each stays where it is. -/
theorem of_map {f : Ticket × Task → Ticket × Task} (tasks : b'.tasks = b.tasks.map f)
    (stays : ∀ y, y.1 = (f y).1 ∧ y.2.side = (f y).2.side) (finished : b'.finished = b.finished)
    (held : b'.held = b.held) (gone : b'.gone = b.gone) : Kept b b' where
  tasks x hx := by
    rw [tasks] at hx
    obtain ⟨y, hy, rfl⟩ := List.mem_map.mp hx
    exact ⟨y, hy, stays y⟩
  finished x hx := Or.inl (finished ▸ hx)
  held u hu := held ▸ hu
  gone u hu := Or.inl (gone ▸ hu)

theorem refl (b : Bench) : Kept b b := of_eq rfl rfl rfl rfl

theorem trans (h : Kept b b') (h' : Kept b' b'') : Kept b b'' where
  tasks x hx := by
    obtain ⟨y, hy, hyx⟩ := h'.tasks x hx
    obtain ⟨z, hz, hzy⟩ := h.tasks y hy
    exact ⟨z, hz, hzy.1.trans hyx.1, hzy.2.trans hyx.2⟩
  finished x hx := by
    rcases h'.finished x hx with hx | ⟨y, hy, hyx⟩
    · exact h.finished x hx
    · obtain ⟨z, hz, hzy⟩ := h.tasks y hy
      exact Or.inr ⟨z, hz, hzy.1.trans hyx⟩
  held s hs := h.held s (h'.held s hs)
  gone s hs := by
    rcases h'.gone s hs with hs | hs
    · rcases h.gone s hs with hs | ⟨hheld, htasks⟩
      · exact Or.inl hs
      · refine Or.inr ⟨fun hno => hheld (h'.held s hno), fun x hx hside => ?_⟩
        obtain ⟨y, hy, hyx⟩ := h'.tasks x hx
        exact htasks y hy (hyx.2.trans hside)
    · exact Or.inr hs

theorem release (s : Side) (b : Bench) : Kept b (b.release s) := by
  unfold Bench.release
  split
  · exact refl b
  · next hidle =>
      simp only [Bool.or_eq_true, List.any_eq_true, decide_eq_true_eq, not_or, not_exists] at hidle
      refine ⟨fun x hx => ⟨x, hx, rfl, rfl⟩, fun x hx => Or.inl hx, fun u hu => hu, fun u hu => ?_⟩
      rcases List.mem_cons.mp hu with rfl | hu
      · right
        refine ⟨fun hno => hidle.1.1 (List.contains_iff_mem.mpr hno), fun x hx hside => ?_⟩
        exact hidle.2 x ⟨hx, hside⟩
      · exact Or.inl hu

/-- A task goes, and maybe its end. -/
theorem remove (t : Ticket) (s : Side) (b : Bench) : Kept b (b.remove t s) := by
  have hless : Kept b { b with tasks := b.tasks.filter fun x => x.1 ≠ t } :=
    ⟨fun x hx => ⟨x, (List.mem_filter.mp hx).1, rfl, rfl⟩, fun x hx => Or.inl hx, fun u hu => hu,
      fun u hu => Or.inl hu⟩
  exact hless.trans (release s _)

theorem setWork (t : Ticket) (w : Work) (b : Bench) : Kept b (b.setWork t w) := by
  refine of_map rfl (fun y => ?_) rfl rfl rfl
  dsimp only
  split <;> exact ⟨rfl, rfl⟩

theorem proceed {ω ρ : Type} {x : Ticket × Task} (hx : x ∈ b.tasks) (s : Side) (wrap : ω → Work)
    (result : ρ → Result) (r : Try Link ω ρ) : Kept b (b.proceed x.1 s wrap result r) := by
  unfold Bench.proceed
  dsimp only
  split
  · have hlink : Kept b (wake r.wakes { b with link := r.state }) := of_eq rfl rfl rfl rfl
    exact hlink.trans (setWork x.1 _ _)
  · next y hy =>
      have hdone : Kept b { wake r.wakes { b with link := r.state } with
          finished := (x.1, result y) :: b.finished } := by
        refine ⟨fun z hz => ⟨z, hz, rfl, rfl⟩, fun z hz => ?_, fun u hu => hu, fun u hu => Or.inl hu⟩
        rcases List.mem_cons.mp hz with rfl | hz
        · exact Or.inr ⟨x, hx, rfl⟩
        · exact Or.inl hz
      exact hdone.trans (remove x.1 s _)

theorem abandon (t : Ticket) (task : Task) (b : Bench) : Kept b (b.abandon t task) := by
  have hlink (l : Link) (ts : List Ticket) : Kept b (wake ts { b with link := l }) :=
    of_eq rfl rfl rfl rfl
  exact (hlink _ _).trans (remove t task.side _)

theorem turn (t : Ticket) (b : Bench) : Kept b (b.turn t) := by
  unfold Bench.turn
  split
  · exact refl b
  · next u task hfind =>
      have hmem := List.mem_of_find?_eq_some hfind
      have hu : u = t := by simpa using List.find?_some hfind
      subst hu
      split
      · exact abandon u task b
      · split <;> exact proceed hmem _ _ _ _

theorem letGo (s : Side) (b : Bench) : Kept b (b.letGo s) := by
  have hless : Kept b { b with held := b.held.filter (· ≠ s) } :=
    ⟨fun x hx => ⟨x, hx, rfl, rfl⟩, fun x hx => Or.inl hx, fun u hu => (List.mem_filter.mp hu).1,
      fun u hu => Or.inl hu⟩
  exact hless.trans (release s _)

theorem abort (t : Ticket) (b : Bench) : Kept b (b.abort t) := by
  refine of_map rfl (fun y => ?_) rfl rfl rfl
  dsimp only
  split <;> exact ⟨rfl, rfl⟩

theorem outside (o : Outside) (b : Bench) : Kept b (b.outside o) := by
  unfold Bench.outside
  split <;> exact of_eq rfl rfl rfl rfl

end Kept

namespace Journal

variable {j : Journal} {s u : Side} {t : Ticket} {m : Move}

/-! ## Tickets -/

theorem lt_of_job? (h : (j.job? s t).isSome = true) : t < j.past.length := by
  by_contra hno
  have hnone : j.past[t]? = none := List.getElem?_eq_none (Nat.not_lt.mp hno)
  unfold job? at h
  rw [hnone] at h
  cases h

/-- A task stays what it was started as. -/
theorem job?_move_of_lt (h : t < j.past.length) : (j.move m).job? s t = j.job? s t := by
  unfold job? move
  rw [List.getElem?_append_left h]

/-- Only a move that starts a task on an end gives a new ticket there. -/
theorem job?_move_length : (j.move m).job? s j.past.length =
    (Moment.started? ⟨j.bench, m, j.bench.move j.past.length m⟩).bind fun x =>
      if x.1 = s then some x.2 else none := by
  unfold job? move
  rw [List.getElem?_concat_length]
  rfl

/-- A task is on one end. -/
theorem side_unique (h : (j.job? s t).isSome = true) (h' : (j.job? u t).isSome = true) : s = u := by
  obtain ⟨job, hjob⟩ := Option.isSome_iff_exists.mp h
  obtain ⟨job', hjob'⟩ := Option.isSome_iff_exists.mp h'
  obtain ⟨x, hx, hxs⟩ := Option.bind_eq_some_iff.mp hjob
  obtain ⟨y, hy, hyu⟩ := Option.bind_eq_some_iff.mp hjob'
  rw [hx] at hy
  cases hy
  split at hxs
  · next hs =>
      split at hyu
      · next hu => exact hs.symm.trans hu
      · cases hyu
  · cases hxs

/-- Every task and every result belongs to a ticket, and an end that has gone is out of use. -/
structure Tidy (j : Journal) : Prop where
  tasks : ∀ x ∈ j.bench.tasks, (j.job? x.2.side x.1).isSome = true
  finished : ∀ x ∈ j.bench.finished, x.1 < j.past.length
  gone : ∀ s ∈ j.bench.gone, s ∉ j.bench.held ∧ ∀ x ∈ j.bench.tasks, x.2.side ≠ s

theorem tidy_ofLink (l : Link) : (ofLink l).Tidy := ⟨nofun, nofun, nofun⟩

theorem Tidy.kept (h : j.Tidy) (hkept : Kept j.bench (j.move m).bench) : (j.move m).Tidy := by
  have hlength : (j.move m).past.length = j.past.length + 1 := List.length_append
  refine ⟨fun x hx => ?_, fun x hx => ?_, fun s hs => ?_⟩
  · obtain ⟨y, hy, hyx⟩ := hkept.tasks x hx
    have hjob := h.tasks y hy
    rw [hyx.1, hyx.2] at hjob
    rw [job?_move_of_lt (lt_of_job? hjob)]
    exact hjob
  · rw [hlength]
    rcases hkept.finished x hx with hx | ⟨y, hy, hyx⟩
    · exact Nat.lt_succ_of_lt (h.finished x hx)
    · exact Nat.lt_succ_of_lt (hyx ▸ lt_of_job? (h.tasks y hy))
  · rcases hkept.gone s hs with hs | hs
    · obtain ⟨hheld, htasks⟩ := h.gone s hs
      refine ⟨fun hno => hheld (hkept.held s hno), fun x hx hside => ?_⟩
      obtain ⟨y, hy, hyx⟩ := hkept.tasks x hx
      exact htasks y hy (hyx.2.trans hside)
    · exact hs

/-- **Tickets stay in order** on every bench. -/
theorem Tidy.move (h : j.Tidy) (m : Move) : (j.move m).Tidy := by
  cases m with
  | start s job =>
      by_cases hheld : j.bench.held.contains s = true
      · have hbench : (j.move (.start s job)).bench = j.bench.start j.past.length s job.work := rfl
        have hstart : j.bench.start j.past.length s job.work = wake [j.past.length]
            { j.bench with tasks := j.bench.tasks ++ [(j.past.length, ⟨s, job.work, false⟩)] } :=
          if_pos hheld
        have hlength : (j.move (.start s job)).past.length = j.past.length + 1 :=
          List.length_append
        rw [hstart] at hbench
        refine ⟨fun x hx => ?_, fun x hx => ?_, fun u hu => ?_⟩
        · rw [hbench] at hx
          rcases List.mem_append.mp hx with hx | hx
          · have hjob := h.tasks x hx
            rw [job?_move_of_lt (lt_of_job? hjob)]
            exact hjob
          · rw [List.mem_singleton.mp hx]
            show ((j.move (.start s job)).job? s j.past.length).isSome = true
            rw [job?_move_length]
            have hstarted : Moment.started? ⟨j.bench, .start s job,
                j.bench.move j.past.length (.start s job)⟩ = some (s, job) := if_pos hheld
            rw [hstarted]
            show (if s = s then some job else none).isSome = true
            rw [if_pos rfl]
            rfl
        · rw [hbench] at hx
          rw [hlength]
          exact Nat.lt_succ_of_lt (h.finished x hx)
        · rw [hbench] at hu ⊢
          obtain ⟨hno, htasks⟩ := h.gone u hu
          refine ⟨hno, fun x hx hside => ?_⟩
          rcases List.mem_append.mp hx with hx | hx
          · exact htasks x hx hside
          · rw [List.mem_singleton.mp hx] at hside
            exact hno (hside ▸ List.contains_iff_mem.mp hheld)
      · refine h.kept ?_
        have hsame : (j.move (.start s job)).bench = j.bench := if_neg hheld
        rw [hsame]
        exact .refl _
  | turn t => exact h.kept (Kept.turn t j.bench)
  | abort t => exact h.kept (Kept.abort t j.bench)
  | letGo s => exact h.kept (Kept.letGo s j.bench)
  | wait ms => exact h.kept (Kept.of_eq rfl rfl rfl rfl)
  | outside o => exact h.kept (Kept.outside o j.bench)

end Journal

end Bench

end PeerRpc
