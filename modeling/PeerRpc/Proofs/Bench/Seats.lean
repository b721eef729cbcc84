import PeerRpc.Proofs.Bench.Desk

/-!
# PeerRpc.Proofs.Bench.Seats -- the stream end of a side on a bench

A side has its seat on a link if it has a stream end there, alone or facing another one with which it
shares its pipes (`Link.Seats`). What a task does on a link it does at the end of its side
(`Work.state_tryOn`), and the end that faces it only sees its pipes used. The tasks of a bench are
looked up by their tickets: `Bench.work?` is what the task with a ticket does on an end.
-/

namespace PeerRpc

/-! ## Links -/

namespace Link

variable {l : Link} {s : Side} {e : Stream.End} {severs : Prop}

/-- A link on which something has been done at the stream end of a side, if there is one. -/
def act (s : Side) (g : Stream.End → Stream.End) (l : Link) : Link :=
  match l.streamEnd? s with
  | none => l
  | some e => l.setStreamEnd s (g e)

/-- A side has this stream end on a link. An end that faces it has the same pipes, and may sever the
outbound one. -/
structure Seats (severs : Prop) (s : Side) (l : Link) (e : Stream.End) : Prop where
  own : l.streamEnd? s = some e
  other : ∀ f, l.streamEnd? s.opposite = some f →
    severs ∧ e.inbound = f.outbound ∧ e.outbound = f.inbound

/-- A link all of whose ends are stream ends. -/
def Streams (l : Link) : Prop := ∃ s, (l.streamEnd? s).isSome = true

theorem streams_of_end (h : l.streamEnd? s = some e) : l.Streams :=
  ⟨s, Option.isSome_iff_exists.mpr ⟨e, h⟩⟩

/-- Such a link has two ends, or one of them. -/
theorem Streams.cases (h : l.Streams) : (∃ m x, l = stream m x) ∨ ∃ s f, l = bare s f := by
  obtain ⟨u, hu⟩ := h
  cases l with
  | memory p => cases hu
  | scripted s' c => cases hu
  | stream m x => exact Or.inl ⟨m, x, rfl⟩
  | bare s' f => exact Or.inr ⟨s', f, rfl⟩

theorem eq_of_streamEnd?_bare {s' : Side} {f : Stream.End} (h : (bare s' f).streamEnd? s = some e) :
    s' = s := by
  by_contra hne
  have hnone : (bare s' f).streamEnd? s = none := if_neg fun hs => hne hs.symm
  rw [hnone] at h
  cases h

theorem streamEnd?_setStreamEnd (h : l.streamEnd? s = some e) (e' : Stream.End) :
    (l.setStreamEnd s e').streamEnd? s = some e' := by
  rcases (streams_of_end h).cases with ⟨m, x, rfl⟩ | ⟨s', f, rfl⟩
  · cases s <;> rfl
  · obtain rfl := eq_of_streamEnd?_bare h
    cases s' <;> rfl

theorem streamEnd?_setStreamEnd_opposite (h : l.streamEnd? s = some e) (e' : Stream.End) :
    (l.setStreamEnd s e').streamEnd? s.opposite = (l.streamEnd? s.opposite).map fun f =>
      { f with inbound := e'.outbound, outbound := e'.inbound } := by
  rcases (streams_of_end h).cases with ⟨m, x, rfl⟩ | ⟨s', f, rfl⟩
  · cases s <;> rfl
  · obtain rfl := eq_of_streamEnd?_bare h
    cases s' <;> rfl

theorem act_of_some (h : l.streamEnd? s = some e) (g : Stream.End → Stream.End) :
    l.act s g = l.setStreamEnd s (g e) := by
  unfold act
  rw [h]

theorem act_of_none (h : l.streamEnd? s = none) (g : Stream.End → Stream.End) : l.act s g = l := by
  unfold act
  rw [h]

/-- Something is done at the end of a side. -/
theorem Seats.act (h : Seats severs s l e) (g : Stream.End → Stream.End) :
    Seats severs s (l.act s g) (g e) := by
  rw [act_of_some h.own]
  refine ⟨streamEnd?_setStreamEnd h.own _, ?_⟩
  intro f hf
  rw [streamEnd?_setStreamEnd_opposite h.own] at hf
  obtain ⟨f', hf', rfl⟩ := Option.map_eq_some_iff.mp hf
  exact ⟨(h.other f' hf').1, rfl, rfl⟩

/-- Something is done at the end that faces the end of a side. -/
theorem Seats.act_opposite (h : Seats severs s l e) {f : Stream.End}
    (hf : l.streamEnd? s.opposite = some f) (g : Stream.End → Stream.End) :
    Seats severs s (l.act s.opposite g)
      { e with inbound := (g f).outbound, outbound := (g f).inbound } := by
  rw [act_of_some hf]
  constructor
  · have hfacing := streamEnd?_setStreamEnd_opposite hf (g f)
    rw [Side.opposite_opposite, h.own] at hfacing
    exact hfacing
  · intro f' hf'
    rw [streamEnd?_setStreamEnd hf] at hf'
    cases hf'
    exact ⟨(h.other f hf).1, rfl, rfl⟩

/-! ## Operations -/

theorem send_of_end (h : l.streamEnd? s = some e) (t : Ticket) (op : Sending) :
    l.send s t op = lift (l.setStreamEnd s) .stream (Stream.send t op.onStream e) := by
  rcases (streams_of_end h).cases with ⟨m, x, rfl⟩ | ⟨s', f, rfl⟩
  · cases op <;> simp only [send, h] <;> rfl
  · cases op <;> simp only [send, h] <;> rfl

theorem recv_of_end (h : l.streamEnd? s = some e) (t : Ticket) (op : Receiving) :
    l.recv s t op = lift (l.setStreamEnd s) .stream (Stream.recv t op.onStream e) := by
  rcases (streams_of_end h).cases with ⟨m, x, rfl⟩ | ⟨s', f, rfl⟩
  · cases op <;> simp only [recv, h] <;> rfl
  · cases op <;> simp only [recv, h] <;> rfl

theorem close_of_end (h : l.streamEnd? s = some e) (now : Nat) (t : Ticket) (op : Closing) :
    l.close now s t op = lift (l.setStreamEnd s) .stream (Stream.close now t op.onStream e) := by
  rcases (streams_of_end h).cases with ⟨m, x, rfl⟩ | ⟨s', f, rfl⟩
  · cases op <;> simp only [close, h] <;> rfl
  · cases op <;> simp only [close, h] <;> rfl

theorem Seats.streams (h : Seats severs s l e) : l.Streams := streams_of_end h.own

theorem drop_eq (h : l.Streams) (s : Side) : (l.drop s).1 = l.act s fun e => e.drop.1 := by
  rcases h.cases with ⟨m, x, rfl⟩ | ⟨s', f, rfl⟩
  · cases s <;> rfl
  · cases hs : (bare s' f).streamEnd? s <;> simp only [drop, act, hs]

theorem abandonSend_eq (h : l.Streams) (s : Side) (t : Ticket) :
    (l.abandonSend s t).1 = l.act s fun e => (Stream.abandonWrite t e).1 := by
  rcases h.cases with ⟨m, x, rfl⟩ | ⟨s', f, rfl⟩
  · cases s <;> rfl
  · cases hs : (bare s' f).streamEnd? s <;> simp only [abandonSend, act, hs]

theorem abandonRecv_eq (h : l.Streams) (s : Side) (t : Ticket) (op : Receiving) :
    (l.abandonRecv s t op).1 = l.act s fun e => (Stream.abandonRecv t e).1 := by
  rcases h.cases with ⟨m, x, rfl⟩ | ⟨s', f, rfl⟩
  · cases s <;> rfl
  · cases hs : (bare s' f).streamEnd? s <;> simp only [abandonRecv, act, hs]

theorem abandonClose_eq (h : l.Streams) (s : Side) (t : Ticket) :
    (l.abandonClose s t).1 = l.act s fun e => (Stream.abandonWrite t e).1 := by
  rw [← abandonSend_eq h]
  rcases h.cases with ⟨m, x, rfl⟩ | ⟨s', f, rfl⟩ <;> rfl

/-- Nothing can be done from a side that has no end. -/
theorem send_of_none (hs : l.Streams) (h : l.streamEnd? s = none) (t : Ticket) (op : Sending) :
    (l.send s t op).state = l := by
  rcases hs.cases with ⟨m, x, rfl⟩ | ⟨s', f, rfl⟩
  · cases h
  · simp only [send, h]
    rfl

theorem recv_of_none (hs : l.Streams) (h : l.streamEnd? s = none) (t : Ticket) (op : Receiving) :
    (l.recv s t op).state = l := by
  rcases hs.cases with ⟨m, x, rfl⟩ | ⟨s', f, rfl⟩
  · cases h
  · simp only [recv, h]
    rfl

theorem close_of_none (hs : l.Streams) (h : l.streamEnd? s = none) (now : Nat) (t : Ticket)
    (op : Closing) : (l.close now s t op).state = l := by
  rcases hs.cases with ⟨m, x, rfl⟩ | ⟨s', f, rfl⟩
  · cases h
  · simp only [close, h]
    rfl

end Link

namespace Bench

variable {b : Bench} {s u : Side} {t v : Ticket} {e : Stream.End} {l : Link}

/-! ## Tries -/

/-- One try of a task on a link. -/
def Work.tryOn (now : Nat) (s : Side) (t : Ticket) (l : Link) : Work → Try Link Work Result
  | send op => (l.send s t op).map send fun r => r.map fun () => none
  | recv op => (l.recv s t op).map recv fun r => r.map some
  | close op => (l.close now s t op).map close fun () => .ok none

/-- What a task does on a link it does at the end of its side. -/
theorem Work.state_tryOn (h : l.Streams) (now : Nat) (s : Side) (t : Ticket) (w : Work) :
    (w.tryOn now s t l).state = l.act s fun e => (w.onStream.attempt now t e).state := by
  cases hs : l.streamEnd? s with
  | none =>
      rw [Link.act_of_none hs]
      cases w with
      | send op => exact Link.send_of_none h hs t op
      | recv op => exact Link.recv_of_none h hs t op
      | close op => exact Link.close_of_none h hs now t op
  | some e =>
      rw [Link.act_of_some hs]
      cases w with
      | send op => exact congrArg Try.state (Link.send_of_end hs t op)
      | recv op => exact congrArg Try.state (Link.recv_of_end hs t op)
      | close op => exact congrArg Try.state (Link.close_of_end hs now t op)

/-- What comes of a task at its turn is what comes of it at the end of its side. -/
theorem Work.progress_tryOn (h : l.streamEnd? s = some e) (now : Nat) (t : Ticket) (w : Work) :
    (w.tryOn now s t l).progress.pending?.map onStream = w.onStream.next? now t e ∧
      (w.tryOn now s t l).progress.done? = w.onStream.result? now t e := by
  cases w with
  | send op =>
      show ((l.send s t op).map send _).progress.pending?.map onStream =
          (Stream.Work.send op.onStream).next? now t e ∧
        ((l.send s t op).map send _).progress.done? = (Stream.Work.send op.onStream).result? now t e
      rw [Link.send_of_end h, Stream.Work.next?_send, Stream.Work.result?_send]
      unfold Link.lift Try.map
      cases (Stream.send t op.onStream e).progress <;> exact ⟨rfl, rfl⟩
  | recv op =>
      show ((l.recv s t op).map recv _).progress.pending?.map onStream =
          (Stream.Work.recv op.onStream).next? now t e ∧
        ((l.recv s t op).map recv _).progress.done? = (Stream.Work.recv op.onStream).result? now t e
      rw [Link.recv_of_end h, Stream.Work.next?_recv, Stream.Work.result?_recv]
      unfold Link.lift Try.map
      cases (Stream.recv t op.onStream e).progress <;> exact ⟨rfl, rfl⟩
  | close op =>
      show ((l.close now s t op).map close _).progress.pending?.map onStream =
          (Stream.Work.close op.onStream).next? now t e ∧
        ((l.close now s t op).map close _).progress.done? = (Stream.Work.close op.onStream).result? now t e
      rw [Link.close_of_end h, Stream.Work.next?_close, Stream.Work.result?_close]
      unfold Link.lift Try.map
      cases (Stream.close now t op.onStream e).progress <;> exact ⟨rfl, rfl⟩

/-! ## Turns -/

theorem turn_of_none (h : (b.tasks.find? fun x => x.1 = t) = none) : b.turn t = b := by
  unfold turn
  rw [h]

theorem turn_of_aborted {x : Ticket × Task} (h : (b.tasks.find? fun x => x.1 = t) = some x)
    (haborted : x.2.aborted = true) : b.turn t = abandon t x.2 b := by
  unfold turn
  rw [h]
  exact if_pos haborted

/-- A task at its turn tries once. -/
theorem turn_of_acting {x : Ticket × Task} (h : (b.tasks.find? fun x => x.1 = t) = some x)
    (haborted : x.2.aborted = false) :
    b.turn t = proceed t x.2.side id id (x.2.work.tryOn b.now x.2.side t b.link) b := by
  unfold turn
  rw [h]
  dsimp only
  rw [haborted, if_neg nofun]
  cases x.2.work with
  | send op =>
      show proceed t x.2.side .send _ (b.link.send x.2.side t op) b =
        proceed t x.2.side id id ((b.link.send x.2.side t op).map Work.send _) b
      unfold proceed Try.map
      cases (b.link.send x.2.side t op).progress <;> rfl
  | recv op =>
      show proceed t x.2.side .recv _ (b.link.recv x.2.side t op) b =
        proceed t x.2.side id id ((b.link.recv x.2.side t op).map Work.recv _) b
      unfold proceed Try.map
      cases (b.link.recv x.2.side t op).progress <;> rfl
  | close op =>
      show proceed t x.2.side .close _ (b.link.close b.now x.2.side t op) b =
        proceed t x.2.side id id ((b.link.close b.now x.2.side t op).map Work.close _) b
      unfold proceed Try.map
      cases (b.link.close b.now x.2.side t op).progress <;> rfl

/-- A task that is taken back leaves the end of its side. -/
theorem abandon_eq (h : b.link.Streams) (t : Ticket) (task : Task) : ∃ wakes,
    abandon t task b = remove t task.side (wake wakes { b with
      link := b.link.act task.side fun e => (task.work.onStream.abandon t e).1 }) := by
  unfold abandon
  cases task.work with
  | send op =>
      refine ⟨(b.link.abandonSend task.side t).2, ?_⟩
      show remove t task.side (wake _ { b with link := (b.link.abandonSend task.side t).1 }) = _
      rw [Link.abandonSend_eq h]
      rfl
  | recv op =>
      refine ⟨(b.link.abandonRecv task.side t op).2, ?_⟩
      show remove t task.side (wake _ { b with link := (b.link.abandonRecv task.side t op).1 }) = _
      rw [Link.abandonRecv_eq h]
      rfl
  | close op =>
      refine ⟨(b.link.abandonClose task.side t).2, ?_⟩
      show remove t task.side (wake _ { b with link := (b.link.abandonClose task.side t).1 }) = _
      rw [Link.abandonClose_eq h]
      rfl

/-! ## Tasks -/

/-- What the task with a ticket does, if it is on this end and whether or not it is to be taken
back. -/
def doing? (b : Bench) (s : Side) (t : Ticket) : Option Work :=
  (b.tasks.find? fun x => x.1 = t).bind fun x => if x.2.side = s then some x.2.work else none

/-- What the task with a ticket does, if it is on this end. -/
def work? (b : Bench) (s : Side) (t : Ticket) : Option Stream.Work :=
  (b.tasks.find? fun x => x.1 = t).bind fun x =>
    if x.2.side = s then some x.2.work.onStream else none

theorem doing?_of_find? {x : Ticket × Task} (h : (b.tasks.find? fun x => x.1 = t) = some x)
    (s : Side) : b.doing? s t = if x.2.side = s then some x.2.work else none := by
  unfold doing?
  rw [h]
  rfl

theorem work?_of_find? {x : Ticket × Task} (h : (b.tasks.find? fun x => x.1 = t) = some x)
    (s : Side) : b.work? s t = if x.2.side = s then some x.2.work.onStream else none := by
  unfold work?
  rw [h]
  rfl

theorem work?_eq (b : Bench) (s : Side) (t : Ticket) :
    b.work? s t = (b.doing? s t).map Work.onStream := by
  cases hx : b.tasks.find? fun x => x.1 = t with
  | none =>
      unfold work? doing?
      rw [hx]
      rfl
  | some x =>
      rw [work?_of_find? hx, doing?_of_find? hx]
      split <;> rfl

theorem find?_map {g : Ticket × Task → Ticket × Task} (hg : ∀ x, (g x).1 = x.1)
    (tasks : List (Ticket × Task)) :
    ((tasks.map g).find? fun x => x.1 = v) = (tasks.find? fun x => x.1 = v).map g := by
  rw [List.find?_map]
  have hsame : ((fun x : Ticket × Task => decide (x.1 = v)) ∘ g) = fun x => decide (x.1 = v) := by
    funext x
    show decide ((g x).1 = v) = _
    rw [hg]
  rw [hsame]

theorem find?_filter (tasks : List (Ticket × Task)) :
    ((tasks.filter fun x => x.1 ≠ t).find? fun x => x.1 = v) =
      if v = t then none else tasks.find? fun x => x.1 = v := by
  rw [List.find?_filter]
  by_cases h : v = t
  · rw [if_pos h, List.find?_eq_none]
    rintro x - hx
    simp only [decide_eq_true_eq, Bool.decide_and, Bool.and_eq_true] at hx
    exact hx.1 (hx.2.trans h)
  · rw [if_neg h]
    congr 1
    funext x
    by_cases hx : x.1 = v
    · simp [hx, h]
    · simp [hx]

theorem find?_setWork (w : Work) : ((b.setWork t w).tasks.find? fun x => x.1 = v) =
    (b.tasks.find? fun x => x.1 = v).map fun x =>
      if x.1 = t then (x.1, { x.2 with work := w }) else x := by
  refine (find?_map (fun x => ?_) b.tasks).trans rfl
  dsimp only
  split <;> rfl

/-- The task that took its turn goes on. -/
theorem doing?_setWork (w : Work) : (b.setWork t w).doing? s v =
    if v = t then (b.doing? s t).map fun _ => w else b.doing? s v := by
  unfold doing?
  rw [find?_setWork]
  cases hx : b.tasks.find? fun x => x.1 = v with
  | none =>
      by_cases h : v = t
      · rw [if_pos h, ← h, hx]
        rfl
      · rw [if_neg h]
        rfl
  | some x =>
      have hv : x.1 = v := by simpa using List.find?_some hx
      by_cases h : v = t
      · rw [if_pos h, ← h, hx, Option.map_some, if_pos (hv.trans rfl)]
        show (if x.2.side = s then some w else none) =
          (if x.2.side = s then some x.2.work else none).map _
        split <;> rfl
      · rw [if_neg h, Option.map_some, if_neg (fun hno => h (hv.symm.trans hno))]

theorem work?_setWork (w : Work) : (b.setWork t w).work? s v =
    if v = t then (b.work? s t).map fun _ => w.onStream else b.work? s v := by
  rw [work?_eq, work?_eq, work?_eq, doing?_setWork]
  split
  · rw [Option.map_map, Option.map_map]
    rfl
  · rfl

/-- A task that is done, or was taken back, is gone. -/
theorem doing?_filter : doing? { b with tasks := b.tasks.filter fun x => x.1 ≠ t } s v =
    if v = t then none else b.doing? s v := by
  unfold doing?
  rw [find?_filter]
  split <;> rfl

theorem work?_filter : work? { b with tasks := b.tasks.filter fun x => x.1 ≠ t } s v =
    if v = t then none else b.work? s v := by
  rw [work?_eq, work?_eq, doing?_filter]
  split <;> rfl

theorem acting?_filter :
    acting? { b with tasks := b.tasks.filter fun x => x.1 ≠ t } s t = none := by
  unfold acting?
  rw [find?_filter, if_pos rfl]
  rfl

theorem acting?_of_find? {x : Ticket × Task} (h : (b.tasks.find? fun x => x.1 = t) = some x)
    (s : Side) : b.acting? s t =
      if x.2.side = s ∧ x.2.aborted = false then some x.2.work else none := by
  unfold acting?
  rw [h]
  rfl

/-- A task that acts at its turn is on the end, and is not to be taken back. -/
theorem exists_of_acting? {w : Work} (h : b.acting? s t = some w) :
    ∃ x, (b.tasks.find? fun x => x.1 = t) = some x ∧ x.2.side = s ∧ x.2.aborted = false ∧
      x.2.work = w := by
  obtain ⟨x, hx, hxs⟩ := Option.bind_eq_some_iff.mp h
  by_cases hc : x.2.side = s ∧ x.2.aborted = false
  · rw [if_pos hc] at hxs
    exact ⟨x, hx, hc.1, hc.2, Option.some.inj hxs⟩
  · rw [if_neg hc] at hxs
    cases hxs

theorem doing?_of_acting? {w : Work} (h : b.acting? s t = some w) : b.doing? s t = some w := by
  obtain ⟨x, hx, hside, -, rfl⟩ := exists_of_acting? h
  rw [doing?_of_find? hx]
  exact if_pos hside

theorem acting?_setWork (w : Work) (h : (b.acting? s t).isSome = true) :
    ((b.setWork t w).acting? s t).isSome = true := by
  obtain ⟨w₀, hw₀⟩ := Option.isSome_iff_exists.mp h
  obtain ⟨x, hx, hside, haborted, -⟩ := exists_of_acting? hw₀
  have ht : x.1 = t := by simpa using List.find?_some hx
  unfold acting?
  rw [find?_setWork, hx, Option.map_some, if_pos ht]
  show (if x.2.side = s ∧ x.2.aborted = false then some w else none).isSome = true
  rw [if_pos ⟨hside, haborted⟩]
  rfl

theorem work?_of_acting? {w : Work} (h : b.acting? s t = some w) :
    b.work? s t = some w.onStream := by
  rw [work?_eq, doing?_of_acting? h]
  rfl

/-- Whether a task is to be taken back does not matter to what it does. -/
theorem doing?_abort : (b.abort t).doing? s v = b.doing? s v := by
  have hfind : ((b.abort t).tasks.find? fun x => x.1 = v) =
      (b.tasks.find? fun x => x.1 = v).map fun x =>
        if x.1 = t then (x.1, { x.2 with aborted := true }) else x := by
    refine (find?_map (fun x => ?_) b.tasks).trans rfl
    dsimp only
    split <;> rfl
  unfold doing?
  rw [hfind]
  cases b.tasks.find? fun x => x.1 = v with
  | none => rfl
  | some x =>
      rw [Option.map_some]
      split <;> rfl

theorem work?_abort : (b.abort t).work? s v = b.work? s v := by
  rw [work?_eq, work?_eq, doing?_abort]

/-- A task has been started under a new ticket. -/
theorem doing?_start (hfresh : ∀ x ∈ b.tasks, x.1 ≠ t) (w : Work) :
    doing? { b with tasks := b.tasks ++ [(t, ⟨u, w, false⟩)] } s v =
      if v = t then (if u = s then some w else none) else b.doing? s v := by
  unfold doing?
  rw [List.find?_append]
  by_cases h : v = t
  · have hnone : (b.tasks.find? fun x => x.1 = v) = none := by
      rw [List.find?_eq_none]
      intro x hx
      simpa [h] using hfresh x hx
    rw [if_pos h, hnone, h]
    simp
  · rw [if_neg h]
    have hnone : ([(t, (⟨u, w, false⟩ : Task))].find? fun x => x.1 = v) = none := by
      simp [Ne.symm h]
    rw [hnone, Option.or_none]

theorem work?_start (hfresh : ∀ x ∈ b.tasks, x.1 ≠ t) (w : Work) :
    work? { b with tasks := b.tasks ++ [(t, ⟨u, w, false⟩)] } s v =
      if v = t then (if u = s then some w.onStream else none) else b.work? s v := by
  rw [work?_eq, work?_eq, doing?_start hfresh]
  by_cases h : v = t
  · rw [if_pos h, if_pos h]
    split <;> rfl
  · rw [if_neg h, if_neg h]

end Bench

end PeerRpc
