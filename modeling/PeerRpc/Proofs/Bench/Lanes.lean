import Mathlib.Data.List.Nodup
import PeerRpc.Proofs.Bench.Table

/-!
# PeerRpc.Proofs.Bench.Lanes -- the two directions of a memory pair

What every step at a `Table` keeps. `Table.Sound` is about the tasks and the pair; `Table.Lane` is
about one direction, with the sends whose messages have entered the queue in the order in which they
did. A send is admitted once, when it is first tried: it enters the queue at once, or waits behind
all that were admitted before (`Table.Admits`), so the order in which sends are first tried is the
order in which their messages enter. `Table.Late` is about sends that are started after the pair has
closed.
-/

namespace PeerRpc

namespace Bench

variable {s u : Side} {t n : Ticket} {w w' : Work} {p : Memory.Pair} {job : Job} {msg : Bytes}

/-! ## Tries on a memory pair -/

namespace Work

/-- A task is at a stage of what it was started for. -/
def Serves : Work → Job → Prop
  | send op, .send msg => op = .fresh msg ∨ op = .memory .blocked
  | recv _, .recv => True
  | close _, .close => True
  | _, _ => False

theorem serves_work (job : Job) : job.work.Serves job := by
  cases job with
  | send msg => exact Or.inl rfl
  | recv => trivial
  | close => trivial

/-- A task whose job is a send sends. -/
theorem Serves.send (h : w.Serves (.send msg)) :
    w = .send (.fresh msg) ∨ w = .send (.memory .blocked) := by
  cases w with
  | send op => exact h.imp (congrArg _) (congrArg _)
  | recv op => exact h.elim
  | close op => exact h.elim

theorem Serves.close (h : w.Serves .close) : ∃ op, w = .close op := by
  cases w with
  | send op => exact h.elim
  | recv op => exact h.elim
  | close op => exact ⟨op, rfl⟩

theorem Serves.recv (h : w.Serves .recv) : ∃ op, w = .recv op := by
  cases w with
  | send op => exact h.elim
  | recv op => exact ⟨op, rfl⟩
  | close op => exact h.elim

theorem Serves.of_send {op : Link.Sending} (h : (Work.send op).Serves job) :
    ∃ msg, job = .send msg ∧ (op = .fresh msg ∨ op = .memory .blocked) := by
  cases job with
  | send msg => exact ⟨msg, rfl, h⟩
  | recv => exact h.elim
  | close => exact h.elim

/-- Every queue stays in order, and a pair that has closed stays closed. -/
structure Keeps (p p' : Memory.Pair) : Prop where
  orderly : ∀ e, (p'.outgoing e).Orderly
  fired : p.closed.fired = true → p'.closed.fired = true

/-- It is enough to look at what a task sends into and at what it receives from. -/
theorem Keeps.of_ends {p' : Memory.Pair} (s : Side) (outgoing : (p'.outgoing s).Orderly)
    (incoming : (p'.incoming s).Orderly)
    (fired : p.closed.fired = true → p'.closed.fired = true) : Keeps p p' := by
  refine ⟨fun e => ?_, fired⟩
  by_cases he : e = s
  · rw [he]
    exact outgoing
  · rw [Side.eq_opposite he]
    exact incoming

theorem keeps_tryPair (h : ∀ e, (p.outgoing e).Orderly) (s : Side) (t : Ticket) (w : Work) :
    Keeps p (w.tryPair s t p).state := by
  cases w with
  | send op =>
      show Keeps p (Memory.send s t op.onPair p).state
      cases op.onPair with
      | fresh msg =>
          obtain ⟨⟨hincoming, hfired⟩, hsent⟩ := Memory.sent_send (h s) t msg
          refine .of_ends s ?_ (hincoming ▸ h s.opposite) fun hf => hfired.trans hf
          cases hsent with
          | refused err hprogress hstate =>
              rw [hstate]
              exact h s
          | enters hwhole hprogress hpasses => exact hpasses.orderly
          | waits hwhole hprogress hpasses => exact hpasses.orderly
      | blocked =>
          obtain ⟨hfed, hresumed⟩ := Memory.resumed_send s t p
          refine .of_ends s ?_ (hfed.incoming ▸ h s.opposite) fun hf => hfed.fired.trans hf
          cases hresumed with
          | done hprogress houtgoing => exact houtgoing ▸ h s
          | broken hbroken hprogress houtgoing =>
              exact houtgoing ▸ (Memory.Queue.passes_withdraw (h s) t).orderly
          | waits hprogress hstate =>
              rw [hstate]
              exact h s
  | recv op =>
      show Keeps p (Memory.recv s t op.onPair p).state
      obtain ⟨hdrained, -⟩ := Memory.received_recv s t op.onPair p
      refine .of_ends s (hdrained.outgoing ▸ h s) ?_ fun hf => ?_
      · cases Memory.fetched_recv (h s.opposite) t op.onPair with
        | message msg moved hprogress hpasses => exact hpasses.orderly
        | closed hprogress hempty hpasses => exact hpasses.orderly
        | waits op' hprogress hpasses => exact hpasses.orderly
      · rcases hdrained.fired with hsame | ⟨hnow, -⟩
        · exact hsame.trans hf
        · exact hnow
  | close op =>
      refine ⟨fun e => ?_, fun _ => rfl⟩
      show (p.close.1.outgoing e).Orderly
      rw [Memory.Pair.outgoing_close]
      exact h e

/-- Of what a task waits for it goes on with that, and a send that waits is blocked. -/
theorem serves_tryPair (h : ∀ e, (p.outgoing e).Orderly) (hw : w.Serves job)
    (hnext : (w.tryPair s t p).progress.pending? = some w') : w'.Serves job := by
  cases w with
  | send op =>
      obtain ⟨msg, rfl, -⟩ := hw.of_send
      have hmap : (Memory.send s t op.onPair p).progress.pending?.map
          (fun op => Work.send (.memory op)) = some w' :=
        (Progress.pending?_map ..).symm.trans hnext
      obtain ⟨op', hop', rfl⟩ := Option.map_eq_some_iff.mp hmap
      cases op' with
      | blocked => exact Or.inr rfl
      | fresh msg' =>
          -- a send that has been tried is not fresh any more
          exfalso
          revert hop'
          cases op.onPair with
          | fresh msg =>
              cases (Memory.sent_send (h s) t msg).2 with
              | refused err hprogress => rw [hprogress]; exact nofun
              | enters hwhole hprogress => rw [hprogress]; exact nofun
              | waits hwhole hprogress => rw [hprogress]; exact nofun
          | blocked =>
              cases (Memory.resumed_send s t p).2 with
              | done hprogress => rw [hprogress]; exact nofun
              | broken hbroken hprogress => rw [hprogress]; exact nofun
              | waits hprogress => rw [hprogress]; exact nofun
  | recv op =>
      have hmap : (Memory.recv s t op.onPair p).progress.pending?.map
          (fun op => Work.recv (.memory op)) = some w' :=
        (Progress.pending?_map ..).symm.trans hnext
      obtain ⟨op', -, rfl⟩ := Option.map_eq_some_iff.mp hmap
      cases job with
      | send msg => exact hw
      | recv => trivial
      | close => exact hw
  | close op => cases hnext

/-- A task that is taken back withdraws its message, if it waits, and nothing passes. -/
theorem passes_quit (h : ∀ e, (p.outgoing e).Orderly) (u s : Side) (t : Ticket) (w : Work) :
    ∃ waiting, waiting.Sublist (p.outgoing s).senders ∧
      (∀ x ∈ (p.outgoing s).senders, x.1 ≠ t → x ∈ waiting) ∧
      (p.outgoing s).Passes waiting [] none ((w.quit u t p).outgoing s) := by
  have hsame {q : Memory.Queue} (hq : (p.outgoing s).Passes (p.outgoing s).senders [] none q) :
      ∃ waiting, waiting.Sublist (p.outgoing s).senders ∧
        (∀ x ∈ (p.outgoing s).senders, x.1 ≠ t → x ∈ waiting) ∧
        (p.outgoing s).Passes waiting [] none q :=
    ⟨_, .refl _, fun _ hx _ => hx, hq⟩
  have hstill : (p.outgoing s).Passes (p.outgoing s).senders [] none (p.outgoing s) :=
    (Memory.Queue.Alike.refl _).passes (h s)
  cases w with
  | send op =>
      show ∃ waiting, _ ∧ _ ∧ (p.outgoing s).Passes waiting [] none
        (((p.setOutgoing u ((p.outgoing u).withdraw t)).unwatch t).outgoing s)
      rw [Memory.Pair.outgoing_unwatch]
      by_cases hu : s = u
      · subst hu
        rw [Memory.Pair.outgoing_setOutgoing]
        refine ⟨_, List.filter_sublist, fun x hx ht => ?_,
          Memory.Queue.passes_withdraw (h s) t⟩
        exact List.mem_filter.mpr ⟨hx, decide_eq_true ht⟩
      · rw [Memory.Pair.outgoing_setOutgoing_ne _ hu]
        exact hsame hstill
  | recv op =>
      by_cases hu : s = u
      · subst hu
        have hdrained := (Memory.drained_abandonRecv s t op.onPair p).1
        have hout : ((Work.recv op).quit s t p).outgoing s = p.outgoing s := hdrained.outgoing
        rw [hout]
        exact hsame hstill
      · obtain rfl := Side.eq_opposite hu
        exact hsame (Memory.passes_abandonRecv (h u.opposite) t op.onPair)
  | close op => exact hsame hstill

theorem fired_quit (s : Side) (t : Ticket) (p : Memory.Pair) (w : Work) :
    (w.quit s t p).closed.fired = p.closed.fired := by
  cases w with
  | send op => simp [quit, Memory.abandonSend]
  | recv op => simp [quit, Memory.abandonRecv]
  | close op => rfl

/-- A message that is offered to a pair that has closed is refused. -/
theorem tryPair_of_fired (h : p.closed.fired = true) (msg : Bytes) :
    (Work.send (.fresh msg)).tryPair s t p = .done p (.error .closed) [] := by
  show (Memory.send s t (.fresh msg) p).map _ _ = _
  have hrefused : Memory.send s t (.fresh msg) p = .done p (.error .closed) [] := if_pos h
  rw [hrefused]
  rfl

end Work

/-! ## The tasks and the pair -/

namespace Table

variable {d d' : Table}

/-- What holds of the tasks and the pair at every table. -/
structure Sound (d : Table) : Prop where
  works : ∀ s t w, d.doing s t = some w → ∃ job, d.jobs s t = some job ∧ w.Serves job
  /-- A task is on one end. -/
  sides : ∀ s u t, (d.jobs s t).isSome = true → (d.jobs u t).isSome = true → s = u
  unended : ∀ s t w, d.doing s t = some w → t ∉ d.finished.map Prod.fst
  known : ∀ t ∈ d.finished.map Prod.fst, ∃ s, (d.jobs s t).isSome = true
  earlier : ∀ t u, d.earlier t u → d.IsOver u
  /-- No task was over before it was started. -/
  later : ∀ t, ¬d.earlier t t
  orderly : ∀ s, (d.pair.outgoing s).Orderly
  /-- Closing either end, or letting go of it, closes the pair. -/
  shut : (d.gone ≠ [] ∨ ∃ s t r, (t, r) ∈ d.finished ∧ d.jobs s t = some .close) →
    d.pair.closed.fired = true

theorem sound_ofLimits (l : ChannelLimits) : (ofLimits l).Sound where
  works := nofun
  sides := nofun
  unended := nofun
  known := nofun
  earlier := nofun
  later := nofun
  orderly s := by
    have hnobody : ((Memory.Pair.ofLimits l).outgoing s).senders = [] := by cases s <;> rfl
    exact fun hne => absurd hnobody hne
  shut h := by
    rcases h with h | ⟨s, t, r, h, -⟩
    · exact absurd rfl h
    · cases h

theorem Sound.job_of_doing (h : d.Sound) (hw : d.doing s t = some w) :
    (d.jobs s t).isSome = true := by
  obtain ⟨job, hjob, -⟩ := h.works s t w hw
  rw [hjob]
  rfl

/-- A task is unknown on the end that it is not on. -/
theorem Sound.elsewhere (h : d.Sound) (hw : d.doing u t = some w) (hne : u ≠ s) :
    d.jobs s t = none := by
  cases hjob : d.jobs s t with
  | none => rfl
  | some job => exact absurd (h.sides u s t (h.job_of_doing hw) (by rw [hjob]; rfl)) hne

/-- Nothing passes through a queue that stays as it is. -/
theorem Sound.still (h : d.Sound) {q : Memory.Queue} (hq : q = d.pair.outgoing s) :
    (d.pair.outgoing s).Passes (d.pair.outgoing s).senders [] none q := by
  subst hq
  exact (Memory.Queue.Alike.refl _).passes (h.orderly s)

/-- A ticket under which nothing was started is not that of a task that is done. -/
theorem Sound.not_ended (h : d.Sound) (new : ∀ u, d.jobs u t = none) :
    t ∉ d.finished.map Prod.fst := by
  intro hno
  obtain ⟨u, hu⟩ := h.known t hno
  rw [new u] at hu
  cases hu

/-- A new task is on the end on which it is started. -/
theorem side_of_begun {s u : Side} {t : Ticket} {job : Job} (new : ∀ u, d.jobs u t = none)
    (hu : ((d.begun s t job).jobs u t).isSome = true) : u = s := by
  by_contra hne
  have hnone : (d.begun s t job).jobs u t = none := (assign_of_ne _ (Or.inl hne)).trans (new u)
  rw [hnone] at hu
  cases hu

/-- Tasks that are over are so when another one is started. -/
theorem IsOver.begun (hover : d.IsOver v) (new : ∀ u, d.jobs u t = none) (s : Side) (job : Job) :
    (d.begun s t job).IsOver v := by
  obtain ⟨⟨u, hu⟩, hgone⟩ := hover
  have hne : v ≠ t := by
    rintro rfl
    rw [new u] at hu
    cases hu
  refine ⟨⟨u, ?_⟩, fun e => (assign_of_ne _ (Or.inr hne)).trans (hgone e)⟩
  exact (congrArg Option.isSome (assign_of_ne _ (Or.inr hne))).trans hu

/-- A new task stands behind those that are over, and the others behind whom they stood. -/
theorem earlier_begun {s : Side} {job : Job} {x : Ticket} (hx : (d.begun s t job).earlier v x) :
    (v = t ∧ d.IsOver x) ∨ (v ≠ t ∧ d.earlier v x) := by
  have hx' : Function.update d.earlier t d.IsOver v x := hx
  by_cases hv : v = t
  · subst hv
    rw [Function.update_self] at hx'
    exact Or.inl ⟨rfl, hx'⟩
  · rw [Function.update_of_ne hv] at hx'
    exact Or.inr ⟨hv, hx'⟩

theorem Sound.begins (h : d.Sound) (s : Side) (t : Ticket) (job : Job)
    (new : ∀ u, d.jobs u t = none) : (d.begun s t job).Sound := by
  have hended := h.not_ended new
  have hjobs (u : Side) (v : Ticket) (hv : v ≠ t) :
      assign d.jobs s t (some job) u v = d.jobs u v := assign_of_ne _ (Or.inr hv)
  constructor
  case works =>
    intro u v w hw
    rcases assign_eq_some.mp hw with ⟨⟨rfl, rfl⟩, hown⟩ | ⟨hne, hother⟩
    · obtain rfl : job.work = w := Option.some.inj hown
      exact ⟨job, assign_self .., Work.serves_work job⟩
    · obtain ⟨job', hjob', hserves⟩ := h.works u v w hother
      exact ⟨job', (assign_of_ne _ hne).trans hjob', hserves⟩
  case sides =>
    intro u u' v hu hu'
    by_cases hv : v = t
    · subst hv
      rw [side_of_begun new hu, side_of_begun new hu']
    · refine h.sides u u' v ?_ ?_
      · exact (congrArg Option.isSome (hjobs u v hv)).symm.trans hu
      · exact (congrArg Option.isSome (hjobs u' v hv)).symm.trans hu'
  case unended =>
    intro u v w hw
    rcases assign_eq_some.mp hw with ⟨⟨rfl, rfl⟩, -⟩ | ⟨-, hother⟩
    · exact hended
    · exact h.unended u v w hother
  case known =>
    intro v hv
    obtain ⟨u, hu⟩ := h.known v hv
    have hne : v ≠ t := fun hno => hended (hno ▸ hv)
    exact ⟨u, (congrArg Option.isSome (hjobs u v hne)).trans hu⟩
  case earlier =>
    intro v x hx
    rcases earlier_begun hx with ⟨-, hover⟩ | ⟨-, hbefore⟩
    · exact hover.begun new s job
    · exact (h.earlier v x hbefore).begun new s job
  case later =>
    intro v hv
    rcases earlier_begun hv with ⟨rfl, ⟨u, hu⟩, -⟩ | ⟨-, hbefore⟩
    · rw [new u] at hu
      cases hu
    · exact h.later v hbefore
  case orderly => exact h.orderly
  case shut =>
    intro hshut
    refine h.shut (hshut.imp_right ?_)
    rintro ⟨u, v, r, hr, hjob⟩
    refine ⟨u, v, r, hr, ?_⟩
    rw [← hjobs u v fun hno => hended (hno ▸ List.mem_map_of_mem hr)]
    exact hjob

theorem Sound.tries (h : d.Sound) (runs : d.doing s t = some w) : (d.tried s t w).Sound := by
  obtain ⟨job, hjob, hserves⟩ := h.works s t w runs
  have hkeeps := w.keeps_tryPair h.orderly s t
  have hover (v : Ticket) (hv : d.IsOver v) : (d.tried s t w).IsOver v := by
    refine ⟨hv.1, fun u => (assign_of_ne _ (Or.inr ?_)).trans (hv.2 u)⟩
    rintro rfl
    rw [hv.2 s] at runs
    cases runs
  have hticket : ∀ x ∈ ((w.tryPair s t d.pair).progress.done?.map fun r => (t, r)).toList,
      x.1 = t := by
    intro x hx
    obtain ⟨r, -, rfl⟩ := Option.map_eq_some_iff.mp (Option.mem_toList.mp hx)
    rfl
  refine ⟨fun u v w' hw' => ?_, h.sides, fun u v w' hw' hno => ?_, fun v hv => ?_,
    fun v x hx => hover x (h.earlier v x hx), h.later, hkeeps.orderly, fun hshut => ?_⟩
  · rcases assign_eq_some.mp hw' with ⟨⟨rfl, rfl⟩, hown⟩ | ⟨-, hother⟩
    · exact ⟨job, hjob, Work.serves_tryPair h.orderly hserves hown⟩
    · exact h.works u v w' hother
  · obtain ⟨x, hx, rfl⟩ := List.mem_map.mp hno
    rcases List.mem_append.mp hx with hnew | hold
    · -- the task that is done waits for nothing
      have hdone : (w.tryPair s t d.pair).progress.done?.isSome = true := by
        obtain ⟨r, hr, -⟩ := Option.map_eq_some_iff.mp (Option.mem_toList.mp hnew)
        rw [hr]
        rfl
      rw [tried, hticket x hnew, Progress.pending?_eq_none.mpr hdone] at hw'
      rcases assign_eq_some.mp hw' with ⟨-, hown⟩ | ⟨hne, hother⟩
      · cases hown
      · have hside : u ≠ s := hne.resolve_right fun hno => hno rfl
        obtain ⟨job', hjob', -⟩ := h.works u t w' hother
        rw [h.elsewhere runs (Ne.symm hside)] at hjob'
        cases hjob'
    · rcases assign_eq_some.mp hw' with ⟨⟨rfl, ht⟩, -⟩ | ⟨-, hother⟩
      · exact h.unended u t w runs (ht ▸ List.mem_map_of_mem hold)
      · exact h.unended u x.1 w' hother (List.mem_map_of_mem hold)
  · obtain ⟨x, hx, rfl⟩ := List.mem_map.mp hv
    rcases List.mem_append.mp hx with hnew | hold
    · rw [hticket x hnew]
      exact ⟨s, h.job_of_doing runs⟩
    · exact h.known x.1 (List.mem_map_of_mem hold)
  · rcases hshut with hgone | ⟨u, v, r, hr, hclose'⟩
    · exact hkeeps.fired (h.shut (Or.inl hgone))
    · have hclose : d.jobs u v = some .close := hclose'
      rcases List.mem_append.mp hr with hnew | hold
      · obtain rfl : v = t := hticket _ hnew
        obtain rfl : u = s := h.sides u s v (by rw [hclose]; rfl) (h.job_of_doing runs)
        rw [hclose] at hjob
        cases hjob
        obtain ⟨op, rfl⟩ := hserves.close
        rfl
      · exact hkeeps.fired (h.shut (Or.inr ⟨u, v, r, hold, hclose⟩))

theorem Sound.leaves (h : d.Sound) (s : Side) (t : Ticket) (w : Work) : (d.left s t w).Sound := by
  have hstays {u : Side} {v : Ticket} {w' : Work}
      (hw' : assign d.doing s t none u v = some w') : d.doing u v = some w' := by
    rcases assign_eq_some.mp hw' with ⟨-, hw'⟩ | ⟨-, hw'⟩
    · cases hw'
    · exact hw'
  refine ⟨fun u v w' hw' => h.works u v w' (hstays hw'), h.sides,
    fun u v w' hw' => h.unended u v w' (hstays hw'), h.known, fun v x hx => ?_, h.later,
    fun e => ?_, fun hshut => ?_⟩
  · obtain ⟨hknown, hgone⟩ := h.earlier v x hx
    refine ⟨hknown, fun u => ?_⟩
    cases hno : (d.left s t w).doing u x with
    | none => rfl
    | some w' => exact absurd (hgone u) (by rw [hstays hno]; exact nofun)
  · obtain ⟨waiting, -, -, hpasses⟩ := w.passes_quit h.orderly s e t
    exact hpasses.orderly
  · exact (w.fired_quit s t d.pair).trans (h.shut hshut)

theorem Sound.falls (h : d.Sound) (s : Side) : (d.fallen s).Sound where
  works := h.works
  sides := h.sides
  unended := h.unended
  known := h.known
  earlier := h.earlier
  later := h.later
  orderly e := (Memory.passes_drop h.orderly s e).orderly
  shut _ := (Memory.kept_drop s d.pair).2.1

theorem Sound.step (h : d.Sound) (hstep : Step d d') : d'.Sound := by
  cases hstep with
  | begins s t job new => exact h.begins s t job new
  | tries s t w runs => exact h.tries runs
  | leaves s t w runs => exact h.leaves s t w
  | falls s => exact h.falls s

theorem Sound.steps (h : d.Sound) (hsteps : Steps d d') : d'.Sound := by
  induction hsteps with
  | refl => exact h
  | tail _ hstep ih => exact ih.step hstep

/-! ## One direction -/

/-- Sends in an order in which they may be admitted. -/
structure Admits (d : Table) (s : Side) (all : List (Ticket × Bytes)) : Prop where
  jobs : ∀ x ∈ all, d.jobs s x.1 = some (.send x.2)
  once : (all.map Prod.fst).Nodup
  /-- None of them had come and gone when one before it was started. -/
  order : all.Pairwise fun x y => ¬d.earlier x.1 y.1

variable {all entered waiting moved : List (Ticket × Bytes)} {taken : Option Bytes}

theorem Admits.sublist (h : d.Admits s all) (hsub : waiting.Sublist all) : d.Admits s waiting where
  jobs x hx := h.jobs x (hsub.subset hx)
  once := h.once.sublist (hsub.map _)
  order := h.order.sublist hsub

/-- A send that has just been tried stands behind all others, for it is not over. -/
theorem Admits.join (h : d.Admits s all) (hd : d.Sound) (runs : d.doing s t = some w)
    (job : d.jobs s t = some (.send msg)) (fresh : t ∉ all.map Prod.fst) :
    d.Admits s (all ++ [(t, msg)]) := by
  refine ⟨fun x hx => ?_, ?_, ?_⟩
  · rcases List.mem_append.mp hx with hx | hx
    · exact h.jobs x hx
    · obtain rfl := List.mem_singleton.mp hx
      exact job
  · rw [List.map_append, List.nodup_append]
    refine ⟨h.once, List.nodup_singleton _, fun v hv v' hv' hno => fresh ?_⟩
    obtain rfl := List.mem_singleton.mp hv'
    exact hno ▸ hv
  · rw [List.pairwise_append]
    refine ⟨h.order, List.pairwise_singleton _ _, fun x _ y hy hno => ?_⟩
    obtain rfl := List.mem_singleton.mp hy
    rw [(hd.earlier x.1 t hno).2 s] at runs
    cases runs

/-- One direction, with the sends whose messages have entered the queue, the first first. -/
structure Lane (d : Table) (s : Side) (entered : List (Ticket × Bytes)) : Prop where
  /-- What has entered was received or is in the queue. -/
  passed : d.received s.opposite ++ (d.pair.outgoing s).messages = entered.map Prod.snd
  admits : d.Admits s (entered ++ (d.pair.outgoing s).senders)
  /-- A send that has not been tried has not been admitted. -/
  fresh : ∀ t msg, d.doing s t = some (.send (.fresh msg)) →
    t ∉ (entered ++ (d.pair.outgoing s).senders).map Prod.fst
  /-- A send that waits has been admitted. -/
  waits : ∀ t msg, d.doing s t = some (.send (.memory .blocked)) →
    d.jobs s t = some (.send msg) → (t, msg) ∈ entered ++ (d.pair.outgoing s).senders
  /-- The message of a send that succeeded has entered. -/
  delivered : ∀ t msg, (t, .ok none) ∈ d.finished → d.jobs s t = some (.send msg) →
    (t, msg) ∈ entered

theorem lane_ofLimits (l : ChannelLimits) (s : Side) : (ofLimits l).Lane s [] := by
  have hmessages : ((Memory.Pair.ofLimits l).outgoing s).messages = [] := by cases s <;> rfl
  have hsenders : ((Memory.Pair.ofLimits l).outgoing s).senders = [] := by cases s <;> rfl
  refine ⟨?_, ?_, nofun, nofun, nofun⟩
  · show [] ++ ((Memory.Pair.ofLimits l).outgoing s).messages = []
    rw [hmessages]
    rfl
  · show Admits _ s ([] ++ ((Memory.Pair.ofLimits l).outgoing s).senders)
    rw [hsenders]
    exact ⟨nofun, List.nodup_nil, .nil⟩

/-- **One go at the queue of a direction.** -/
theorem Lane.goes (h : d.Lane s entered)
    (passes : (d.pair.outgoing s).Passes waiting moved taken (d'.pair.outgoing s))
    (received : d'.received s.opposite = d.received s.opposite ++ taken.toList)
    (admits : d'.Admits s (entered ++ waiting))
    (fresh : ∀ t msg, d'.doing s t = some (.send (.fresh msg)) →
      t ∉ (entered ++ waiting).map Prod.fst)
    (waits : ∀ t msg, d'.doing s t = some (.send (.memory .blocked)) →
      d'.jobs s t = some (.send msg) → (t, msg) ∈ entered ++ waiting)
    (delivered : ∀ t msg, (t, .ok none) ∈ d'.finished → d'.jobs s t = some (.send msg) →
      (t, msg) ∈ entered ++ moved) : d'.Lane s (entered ++ moved) := by
  have hall : entered ++ waiting = entered ++ moved ++ (d'.pair.outgoing s).senders := by
    rw [passes.senders, List.append_assoc]
  rw [hall] at admits fresh waits
  refine ⟨?_, admits, fresh, waits, delivered⟩
  rw [received, List.append_assoc, ← passes.messages, ← List.append_assoc, h.passed,
    List.map_append]

/-- What tasks on an end have received after a try. -/
theorem received_tried (h : d.Sound) (runs : d.doing u t = some w) (s : Side) :
    (d.tried u t w).received s = d.received s ++
      if s = u then ((w.tryPair u t d.pair).progress.done?.bind Result.message?).toList else [] := by
  unfold received tried
  dsimp only
  rw [List.filter_append, List.reverse_append, List.filterMap_append]
  refine congrArg (_ ++ ·) ?_
  cases (w.tryPair u t d.pair).progress.done? with
  | none => split <;> rfl
  | some r =>
      by_cases hs : s = u
      · have hjob : (d.jobs s t).isSome = true := hs ▸ h.job_of_doing runs
        cases hr : r.message? <;> simp [hs ▸ hjob, hs, hr]
      · have hjob : d.jobs s t = none := h.elsewhere runs (Ne.symm hs)
        simp [hjob, hs]

/-- A task that starts has received nothing. -/
theorem received_begun (h : d.Sound) (u : Side) (job : Job) (new : ∀ u, d.jobs u t = none)
    (s : Side) : (d.begun u t job).received s = d.received s := by
  unfold received
  refine congrArg (fun l : List (Ticket × Result) => l.reverse.filterMap _) ?_
  refine List.filter_congr fun x hx => ?_
  have hne : x.1 ≠ t := fun hno => h.not_ended new (hno ▸ List.mem_map_of_mem hx)
  show (assign d.jobs u t (some job) s x.1).isSome = _
  rw [assign_of_ne _ (Or.inr hne)]

/-- The sends of an end that go on after a try of a task that is none of them. -/
theorem doing_tried_aside {op : Link.Sending} {v : Ticket} (h : d.Sound)
    (runs : d.doing u t = some w) (aside : ∀ msg, d.jobs s t ≠ some (.send msg))
    (hv : (d.tried u t w).doing s v = some (.send op)) : d.doing s v = some (.send op) := by
  rcases assign_eq_some.mp hv with ⟨⟨rfl, rfl⟩, hown⟩ | ⟨-, hother⟩
  · obtain ⟨job, hjob, hserves⟩ := h.works s v w runs
    obtain ⟨msg, rfl, -⟩ := (Work.serves_tryPair h.orderly hserves hown).of_send
    exact absurd hjob (aside msg)
  · exact hother

/-- A try of a task that is no send of this direction. -/
theorem Lane.aside (h : d.Lane s entered) (hd : d.Sound) (runs : d.doing u t = some w)
    (aside : ∀ msg, d.jobs s t ≠ some (.send msg))
    (passes : (d.pair.outgoing s).Passes (d.pair.outgoing s).senders moved taken
      ((w.tryPair u t d.pair).state.outgoing s))
    (received : (d.tried u t w).received s.opposite = d.received s.opposite ++ taken.toList) :
    (d.tried u t w).Lane s (entered ++ moved) := by
  refine h.goes passes received ⟨h.admits.jobs, h.admits.once, h.admits.order⟩ ?_ ?_ ?_
  · exact fun v msg hv => h.fresh v msg (doing_tried_aside hd runs aside hv)
  · exact fun v msg hv => h.waits v msg (doing_tried_aside hd runs aside hv)
  · intro v msg hv hjob
    rcases List.mem_append.mp hv with hnew | hold
    · obtain ⟨r, -, hr⟩ := Option.map_eq_some_iff.mp (Option.mem_toList.mp hnew)
      cases hr
      exact absurd hjob (aside msg)
    · exact List.mem_append_left _ (h.delivered v msg hold hjob)

/-- A send receives nothing. -/
theorem received_send {op : Link.Sending} (h : d.Sound) (runs : d.doing u t = some (.send op))
    (s : Side) : (d.tried u t (.send op)).received s = d.received s := by
  have hnone : ((Work.send op).tryPair u t d.pair).progress.done?.bind Result.message? = none := by
    show (((Memory.send u t op.onPair d.pair).map _ _).progress.done?).bind _ = none
    unfold Try.map
    rw [Progress.done?_map]
    cases (Memory.send u t op.onPair d.pair).progress.done? with
    | none => rfl
    | some r => cases r <;> rfl
  rw [received_tried h runs s, hnone]
  split <;> exact List.append_nil _

/-- **A send of this direction is tried.** The others stay where they are, and what becomes of this
one is as it should be. -/
theorem Lane.sends {op : Link.Sending} (h : d.Lane s entered) (hd : d.Sound)
    (runs : d.doing s t = some (.send op)) (job : d.jobs s t = some (.send msg))
    (passes : (d.pair.outgoing s).Passes waiting moved none
      ((Memory.send s t op.onPair d.pair).state.outgoing s))
    (admits : d.Admits s (entered ++ waiting))
    (others : ∀ x, x.1 ≠ t → (x ∈ waiting ↔ x ∈ (d.pair.outgoing s).senders))
    (goesOn : (Memory.send s t op.onPair d.pair).progress.pending?.isSome = true →
      (t, msg) ∈ entered ++ waiting)
    (succeeds : (Memory.send s t op.onPair d.pair).progress.done? = some (.ok ()) →
      (t, msg) ∈ entered ++ moved) :
    (d.tried s t (.send op)).Lane s (entered ++ moved) := by
  have hnext : ((Work.send op).tryPair s t d.pair).progress.pending? =
      (Memory.send s t op.onPair d.pair).progress.pending?.map fun op => .send (.memory op) :=
    Progress.pending?_map ..
  have hdone : ((Work.send op).tryPair s t d.pair).progress.done? =
      (Memory.send s t op.onPair d.pair).progress.done?.map fun r => r.map fun () => none :=
    Progress.done?_map ..
  have hreceived := (received_send hd runs s.opposite).trans (List.append_nil _).symm
  have hothers (x : Ticket × Bytes) (hx : x.1 ≠ t) :
      x ∈ entered ++ waiting ↔ x ∈ entered ++ (d.pair.outgoing s).senders := by
    rw [List.mem_append, List.mem_append, others x hx]
  refine h.goes passes hreceived ⟨admits.jobs, admits.once, admits.order⟩ ?_ ?_ ?_
  · intro v msg' hv hno
    rcases assign_eq_some.mp hv with ⟨-, hown⟩ | ⟨hne, hother⟩
    · rw [hnext] at hown
      obtain ⟨op', -, hop'⟩ := Option.map_eq_some_iff.mp hown
      cases hop'
    · have hvt : v ≠ t := hne.resolve_left fun hno => hno rfl
      obtain ⟨x, hx, rfl⟩ := List.mem_map.mp hno
      exact h.fresh x.1 msg' hother (List.mem_map_of_mem ((hothers x hvt).mp hx))
  · intro v msg' hv hjob
    rcases assign_eq_some.mp hv with ⟨⟨-, rfl⟩, hown⟩ | ⟨hne, hother⟩
    · obtain rfl : msg' = msg := Job.send.inj (Option.some.inj (hjob.symm.trans job))
      rw [hnext] at hown
      obtain ⟨op', hop', -⟩ := Option.map_eq_some_iff.mp hown
      exact goesOn (by rw [hop']; rfl)
    · have hvt : v ≠ t := hne.resolve_left fun hno => hno rfl
      exact (hothers _ hvt).mpr (h.waits v msg' hother hjob)
  · intro v msg' hv hjob
    rcases List.mem_append.mp hv with hnew | hold
    · obtain ⟨r', hr', hr⟩ := Option.map_eq_some_iff.mp (Option.mem_toList.mp hnew)
      cases hr
      obtain rfl : msg' = msg := Job.send.inj (Option.some.inj (hjob.symm.trans job))
      rw [hdone] at hr'
      obtain ⟨r, hr, hok⟩ := Option.map_eq_some_iff.mp hr'
      cases r with
      | ok => exact succeeds hr
      | error err => cases hok
    · exact List.mem_append_left _ (h.delivered v msg' hold hjob)

/-- A send that is tried for the first time is refused, or admitted behind all others. -/
theorem Lane.offers (h : d.Lane s entered) (hd : d.Sound)
    (runs : d.doing s t = some (.send (.fresh msg))) (job : d.jobs s t = some (.send msg)) :
    ∃ moved, (d.tried s t (.send (.fresh msg))).Lane s (entered ++ moved) := by
  have hjoined := h.admits.join hd runs job (h.fresh t msg runs)
  rw [List.append_assoc] at hjoined
  have hlast (all : List (Ticket × Bytes)) : (t, msg) ∈ entered ++ (all ++ [(t, msg)]) :=
    List.mem_append_right _ (List.mem_append_right _ List.mem_cons_self)
  have hothers (x : Ticket × Bytes) (hx : x.1 ≠ t) :
      x ∈ (d.pair.outgoing s).senders ++ [(t, msg)] ↔ x ∈ (d.pair.outgoing s).senders := by
    refine ⟨fun hin => ?_, List.mem_append_left _⟩
    refine (List.mem_append.mp hin).resolve_right fun hno => hx ?_
    rw [List.mem_singleton.mp hno]
  cases (Memory.sent_send (hd.orderly s) t msg).2 with
  | refused err hprogress hstate =>
      refine ⟨[], h.sends hd runs job ?_ h.admits (fun _ _ => .rfl) ?_ ?_⟩
      · exact hd.still (congrArg (fun p => p.outgoing s) hstate)
      · exact fun hno => nomatch hprogress ▸ hno
      · exact fun hno => nomatch hprogress ▸ hno
  | enters hwhole hprogress hpasses =>
      exact ⟨_, h.sends hd runs job hpasses hjoined hothers (fun _ => hlast _) fun _ => hlast _⟩
  | waits hwhole hprogress hpasses =>
      refine ⟨_, h.sends hd runs job hpasses hjoined hothers (fun _ => hlast _) ?_⟩
      exact fun hno => nomatch hprogress ▸ hno

/-- A send that waits goes on waiting, or its message has entered, or is withdrawn. -/
theorem Lane.resumes (h : d.Lane s entered) (hd : d.Sound)
    (runs : d.doing s t = some (.send (.memory .blocked)))
    (job : d.jobs s t = some (.send msg)) :
    ∃ moved, (d.tried s t (.send (.memory .blocked))).Lane s (entered ++ moved) := by
  have hwaits := h.waits t msg runs job
  refine ⟨[], ?_⟩
  cases (Memory.resumed_send s t d.pair).2 with
  | done hprogress houtgoing hleft =>
      refine h.sends hd runs job (hd.still houtgoing) h.admits (fun _ _ => .rfl)
        (fun _ => hwaits) fun _ => ?_
      -- it waits no longer, so its message has entered
      rw [List.append_nil]
      refine (List.mem_append.mp hwaits).resolve_right fun hin => ?_
      have hthere : (d.pair.outgoing s).isWaiting t = true :=
        List.any_eq_true.mpr ⟨_, hin, decide_eq_true rfl⟩
      rw [hleft] at hthere
      cases hthere
  | broken hbroken hprogress houtgoing =>
      have hless := (List.Sublist.refl entered).append
        (List.filter_sublist (p := fun x => x.1 ≠ t) (l := (d.pair.outgoing s).senders))
      refine h.sends hd runs job ?_ (h.admits.sublist hless) (fun x hx => ?_) ?_ ?_
      · have hwithdrawn := Memory.Queue.passes_withdraw (hd.orderly s) t
        rwa [← houtgoing] at hwithdrawn
      · rw [List.mem_filter, decide_eq_true_eq]
        exact and_iff_left hx
      · exact fun hno => nomatch hprogress ▸ hno
      · exact fun hno => nomatch hprogress ▸ hno
  | waits hprogress hstate hthere =>
      refine h.sends hd runs job (hd.still (congrArg (fun p => p.outgoing s) hstate)) h.admits
        (fun _ _ => .rfl) (fun _ => hwaits) ?_
      exact fun hno => nomatch hprogress ▸ hno

/-- A receive at the other end takes the first message, and may let senders in. -/
theorem Lane.fetches {op : Link.Receiving} (h : d.Lane s entered) (hd : d.Sound)
    (runs : d.doing s.opposite t = some (.recv op)) :
    ∃ moved, (d.tried s.opposite t (.recv op)).Lane s (entered ++ moved) := by
  have haside (msg : Bytes) : d.jobs s t ≠ some (.send msg) := by
    rw [hd.elsewhere runs (Side.opposite_ne s)]
    exact nofun
  have hreceived := received_tried hd runs s.opposite
  rw [if_pos rfl] at hreceived
  have hdone : ((Work.recv op).tryPair s.opposite t d.pair).progress.done? =
      (Memory.recv s.opposite t op.onPair d.pair).progress.done?.map fun r => r.map some :=
    Progress.done?_map ..
  rw [hdone] at hreceived
  have hend : d.pair.incoming s.opposite = d.pair.outgoing s := by
    show d.pair.outgoing s.opposite.opposite = _
    rw [Side.opposite_opposite]
  have hend' : (Memory.recv s.opposite t op.onPair d.pair).state.incoming s.opposite =
      (Memory.recv s.opposite t op.onPair d.pair).state.outgoing s := by
    show Memory.Pair.outgoing _ s.opposite.opposite = _
    rw [Side.opposite_opposite]
  have hfetched := Memory.fetched_recv (hend ▸ hd.orderly s) t op.onPair
  cases hfetched with
  | message msg moved hprogress hpasses =>
      rw [hend, hend'] at hpasses
      rw [hprogress] at hreceived
      exact ⟨moved, h.aside hd runs haside hpasses hreceived⟩
  | closed hprogress hempty hpasses =>
      rw [hend, hend'] at hpasses
      rw [hprogress] at hreceived
      exact ⟨[], h.aside hd runs haside hpasses hreceived⟩
  | waits op' hprogress hpasses =>
      rw [hend, hend'] at hpasses
      rw [hprogress] at hreceived
      exact ⟨[], h.aside hd runs haside hpasses hreceived⟩

/-- A try that leaves the queue of this direction alone. -/
theorem Lane.looksOn (h : d.Lane s entered) (hd : d.Sound) (runs : d.doing u t = some w)
    (aside : ∀ msg, d.jobs s t ≠ some (.send msg))
    (outgoing : (w.tryPair u t d.pair).state.outgoing s = d.pair.outgoing s)
    (received : (d.tried u t w).received s.opposite = d.received s.opposite) :
    ∃ moved, (d.tried u t w).Lane s (entered ++ moved) :=
  ⟨[], h.aside hd runs aside (hd.still outgoing) (received.trans (List.append_nil _).symm)⟩

/-- **A try of any task.** -/
theorem Lane.tries (h : d.Lane s entered) (hd : d.Sound) (runs : d.doing u t = some w) :
    ∃ moved, (d.tried u t w).Lane s (entered ++ moved) := by
  obtain ⟨job, hjob, hserves⟩ := hd.works u t w runs
  by_cases hu : u = s
  · subst hu
    -- what a task on this end receives comes from the other direction
    have hreceived : (d.tried u t w).received u.opposite = d.received u.opposite := by
      rw [received_tried hd runs, if_neg (Side.opposite_ne u), List.append_nil]
    cases job with
    | send msg =>
        rcases hserves.send with rfl | rfl
        · exact h.offers hd runs hjob
        · exact h.resumes hd runs hjob
    | recv =>
        obtain ⟨op, rfl⟩ := hserves.recv
        have hdrained := (Memory.received_recv u t op.onPair d.pair).1
        exact h.looksOn hd runs (by rw [hjob]; exact fun _ => nofun) hdrained.outgoing hreceived
    | close =>
        obtain ⟨op, rfl⟩ := hserves.close
        exact h.looksOn hd runs (by rw [hjob]; exact fun _ => nofun)
          (Memory.Pair.outgoing_close ..) hreceived
  · obtain rfl := Side.eq_opposite hu
    have haside (msg : Bytes) : d.jobs s t ≠ some (.send msg) := by
      rw [hd.elsewhere runs hu]
      exact nofun
    cases job with
    | send msg =>
        -- what a send on the other end is about is the other direction
        have hincoming (op : Link.Sending) :
            (Memory.send s.opposite t op.onPair d.pair).state.incoming s.opposite =
              d.pair.incoming s.opposite := by
          cases op.onPair with
          | fresh msg => exact (Memory.sent_send (hd.orderly s.opposite) t msg).1.1
          | blocked => exact (Memory.resumed_send s.opposite t d.pair).1.incoming
        have hoff (op : Link.Sending) :
            ((Work.send op).tryPair s.opposite t d.pair).state.outgoing s =
              d.pair.outgoing s := by
          have hsame := hincoming op
          unfold Memory.Pair.incoming at hsame
          rw [Side.opposite_opposite] at hsame
          exact hsame
        rcases hserves.send with rfl | rfl
        · exact h.looksOn hd runs haside (hoff _) (received_send hd runs _)
        · exact h.looksOn hd runs haside (hoff _) (received_send hd runs _)
    | recv =>
        obtain ⟨op, rfl⟩ := hserves.recv
        exact h.fetches hd runs
    | close =>
        obtain ⟨op, rfl⟩ := hserves.close
        refine h.looksOn hd runs haside (Memory.Pair.outgoing_close ..) ?_
        rw [received_tried hd runs, if_pos rfl]
        exact List.append_nil _

/-- A task that is taken back. -/
theorem Lane.leaves (h : d.Lane s entered) (hd : d.Sound) (runs : d.doing u t = some w) :
    ∃ moved, (d.left u t w).Lane s (entered ++ moved) := by
  obtain ⟨waiting, hsub, hstay, hpasses⟩ := w.passes_quit hd.orderly u s t
  have hall := (List.Sublist.refl entered).append hsub
  have hadmits := h.admits.sublist hall
  have hothers {v : Ticket} {w' : Work} (hv : (d.left u t w).doing s v = some w') :
      v ≠ t ∧ d.doing s v = some w' := by
    rcases assign_eq_some.mp hv with ⟨-, hown⟩ | ⟨hne, hother⟩
    · cases hown
    · refine ⟨fun hvt => hne.elim (fun hsu => hsu ?_) fun hno => hno hvt, hother⟩
      exact hd.sides s u v (hd.job_of_doing hother) (hvt ▸ hd.job_of_doing runs)
  refine ⟨[], h.goes hpasses (List.append_nil _).symm
    ⟨hadmits.jobs, hadmits.once, hadmits.order⟩ ?_ ?_ ?_⟩
  · exact fun v msg hv hno => h.fresh v msg (hothers hv).2 ((hall.map Prod.fst).subset hno)
  · intro v msg hv hjob
    obtain ⟨hne, hother⟩ := hothers hv
    rcases List.mem_append.mp (h.waits v msg hother hjob) with hin | hin
    · exact List.mem_append_left _ hin
    · exact List.mem_append_right _ (hstay _ hin hne)
  · intro v msg hv hjob
    rw [List.append_nil]
    exact h.delivered v msg hv hjob

/-- A task that starts has not been tried. -/
theorem Lane.begins (h : d.Lane s entered) (hd : d.Sound) (u : Side) (t : Ticket) (job : Job)
    (new : ∀ u, d.jobs u t = none) : (d.begun u t job).Lane s entered := by
  have hknown {v : Ticket} {job' : Job} (hv : d.jobs s v = some job') : v ≠ t := by
    rintro rfl
    rw [new s] at hv
    cases hv
  have hadmitted {v : Ticket}
      (hv : v ∈ (entered ++ (d.pair.outgoing s).senders).map Prod.fst) : v ≠ t := by
    obtain ⟨x, hx, rfl⟩ := List.mem_map.mp hv
    exact hknown (h.admits.jobs x hx)
  have hjobs {v : Ticket} (hv : v ≠ t) : (d.begun u t job).jobs s v = d.jobs s v :=
    assign_of_ne _ (Or.inr hv)
  have hended {v : Ticket} {r : Result} (hv : (v, r) ∈ d.finished) : v ≠ t :=
    fun hno => hd.not_ended new (hno ▸ List.mem_map_of_mem hv)
  refine ⟨?_, ⟨fun x hx => ?_, h.admits.once, ?_⟩, fun v msg hv => ?_, fun v msg hv hjob => ?_,
    fun v msg hv hjob => ?_⟩
  · rw [received_begun hd u job new]
    exact h.passed
  · exact (hjobs (hadmitted (List.mem_map_of_mem hx))).trans (h.admits.jobs x hx)
  · refine h.admits.order.imp_of_mem fun {x y} hx _ hxy => ?_
    show ¬Function.update d.earlier t _ x.1 y.1
    rw [Function.update_of_ne (hadmitted (List.mem_map_of_mem hx))]
    exact hxy
  · rcases assign_eq_some.mp hv with ⟨⟨-, rfl⟩, -⟩ | ⟨-, hother⟩
    · exact fun hno => hadmitted hno rfl
    · exact h.fresh v msg hother
  · rcases assign_eq_some.mp hv with ⟨-, hown⟩ | ⟨-, hother⟩
    · cases job <;> cases hown
    · obtain ⟨job', hjob', -⟩ := hd.works s v _ hother
      exact h.waits v msg hother ((hjobs (hknown hjob')).symm.trans hjob)
  · exact h.delivered v msg hv ((hjobs (hended hv)).symm.trans hjob)

/-- An end that is let go of. -/
theorem Lane.falls (h : d.Lane s entered) (hd : d.Sound) (u : Side) :
    (d.fallen u).Lane s (entered ++ []) :=
  h.goes (Memory.passes_drop hd.orderly u s) (List.append_nil _).symm
    ⟨h.admits.jobs, h.admits.once, h.admits.order⟩ h.fresh h.waits
    fun v msg hv hjob => List.mem_append_left _ (h.delivered v msg hv hjob)

/-- **What has entered a queue only grows**, and what was sent and received stays accounted for. -/
theorem Lane.step (h : d.Lane s entered) (hd : d.Sound) (hstep : Step d d') :
    ∃ moved, d'.Lane s (entered ++ moved) := by
  cases hstep with
  | begins u t job new =>
      refine ⟨[], ?_⟩
      rw [List.append_nil]
      exact h.begins hd u t job new
  | tries u t w runs => exact h.tries hd runs
  | leaves u t w runs => exact h.leaves hd runs
  | falls u => exact ⟨[], h.falls hd u⟩

theorem Lane.steps (h : d.Lane s entered) (hd : d.Sound) (hsteps : Steps d d') :
    ∃ moved, d'.Lane s (entered ++ moved) := by
  induction hsteps with
  | refl =>
      refine ⟨[], ?_⟩
      rw [List.append_nil]
      exact h
  | tail hbefore hstep ih =>
      obtain ⟨moved, h'⟩ := ih
      obtain ⟨moved', h''⟩ := h'.step (hd.steps hbefore) hstep
      refine ⟨moved ++ moved', ?_⟩
      rw [← List.append_assoc]
      exact h''

/-! ## After the pair has closed -/

/-- A pair that has closed, and what becomes of the sends that are started from then on: they are
refused when they are tried. -/
structure Late (n : Ticket) (d : Table) : Prop where
  fired : d.pair.closed.fired = true
  fresh : ∀ s t msg w, n ≤ t → d.jobs s t = some (.send msg) → d.doing s t = some w →
    w = .send (.fresh msg)
  refused : ∀ s t msg r, n ≤ t → d.jobs s t = some (.send msg) → (t, r) ∈ d.finished →
    r = .error .closed

theorem Late.step (h : d.Late n) (hd : d.Sound) (hstep : Step d d') : d'.Late n := by
  cases hstep with
  | begins s t job new =>
      refine ⟨h.fired, fun u v msg w hn hjob hw => ?_, fun u v msg r hn hjob hr => ?_⟩
      · rcases assign_eq_some.mp hw with ⟨⟨rfl, rfl⟩, hown⟩ | ⟨hne, hother⟩
        · have hsame : (d.begun u v job).jobs u v = some job := assign_self ..
          obtain rfl : job = .send msg := Option.some.inj (hsame.symm.trans hjob)
          exact (Option.some.inj hown).symm
        · exact h.fresh u v msg w hn ((assign_of_ne _ hne).symm.trans hjob) hother
      · refine h.refused u v msg r hn ?_ hr
        refine (assign_of_ne _ (Or.inr ?_)).symm.trans hjob
        exact fun hno => hd.not_ended new (hno ▸ List.mem_map_of_mem hr)
  | tries s t w runs =>
      have hkeeps := w.keeps_tryPair hd.orderly s t
      -- a late send that is tried is done at once
      have hlate {msg : Bytes} (hn : n ≤ t) (hjob : d.jobs s t = some (.send msg)) :
          (w.tryPair s t d.pair).progress = .done (.error .closed) := by
        rw [h.fresh s t msg w hn hjob runs, Work.tryPair_of_fired h.fired]
        rfl
      refine ⟨hkeeps.fired h.fired, fun u v msg w' hn hjob hw => ?_,
        fun u v msg r hn hjob hr => ?_⟩
      · rcases assign_eq_some.mp hw with ⟨⟨rfl, rfl⟩, hown⟩ | ⟨-, hother⟩
        · rw [hlate hn hjob] at hown
          cases hown
        · exact h.fresh u v msg w' hn hjob hother
      · rcases List.mem_append.mp hr with hnew | hold
        · obtain ⟨r', hr', hsame⟩ := Option.map_eq_some_iff.mp (Option.mem_toList.mp hnew)
          cases hsame
          obtain rfl : u = s := by
            have hknown : (d.jobs u t).isSome = true := by
              rw [show d.jobs u t = some (.send msg) from hjob]
              rfl
            exact hd.sides u s t hknown (hd.job_of_doing runs)
          rw [hlate hn hjob] at hr'
          exact (Option.some.inj hr').symm
        · exact h.refused u v msg r hn hjob hold
  | leaves s t w runs =>
      refine ⟨?_, fun u v msg w' hn hjob hw => ?_, h.refused⟩
      · exact (Work.fired_quit s t d.pair w).trans h.fired
      · rcases assign_eq_some.mp hw with ⟨-, hown⟩ | ⟨-, hother⟩
        · cases hown
        · exact h.fresh u v msg w' hn hjob hother
  | falls s => exact ⟨(Memory.kept_drop s d.pair).2.1, h.fresh, h.refused⟩

theorem Late.steps (h : d.Late n) (hd : d.Sound) (hsteps : Steps d d') : d'.Late n := by
  induction hsteps with
  | refl => exact h
  | tail hbefore hstep ih => exact ih.step (hd.steps hbefore) hstep

end Table

end Bench

end PeerRpc
