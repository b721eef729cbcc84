import PeerRpc.Proofs.Duo.Basic
import PeerRpc.Proofs.Host.Accounts
import PeerRpc.Proofs.Host.Lasting
import PeerRpc.Proofs.Memory.Contents
import PeerRpc.Session.Control

/-!
# PeerRpc.Proofs.Session.Shows -- a session on a pair in one process shows a duo

A session says more than a `Duo`: who is ready, who holds an endpoint, what handlers are made of and
what they wait for. `Session.Shows` says which duo it shows: the endpoints and the pair are the same,
a loop that goes on is a task with a ticket of its own, and every call that a caller or a handler
holds was made at the endpoint of its side (`Session.Presents`). `Shows.take` carries this over a
step of an endpoint, and `Shows.put` over a turn of a loop.
-/

namespace PeerRpc

/-- The call that a run waits for. -/
def Session.Pause.call? : Session.Pause → Option Call
  | reply c _ => some c
  | _ => none

/-- The task with this ticket does its part at an endpoint. Tasks that are no loops have greater
tickets than loops. -/
def Desk.Does (k : Desk Service) (s : Side) (t : Ticket) : Session.Work → Prop
  | .read op => t = Duo.readerTicket s ∧ k.reading = .receiving op.onPair
  | .hangUp _ => False
  | .write none => t = Duo.writerTicket s ∧ k.writing = .idle ∧ k.host.sending = none
  | .write (some (o, op)) =>
    t = Duo.writerTicket s ∧ k.writing = .sending op.onPair ∧ k.host.sending = some o
  | .handle run pause => 4 < t ∧ k.host.Began run ∧ ∀ c ∈ pause.call?, k.host.Knows c
  | _ => 4 < t

namespace Desk.Does

variable {k k' : Desk Service} {s : Side} {t : Ticket} {work : Session.Work}

/-- What was so before some acts is so after them, if the writer is where it was. -/
theorem run (acts : List (Act Service))
    (hs : k.writing ≠ .ended → (k.chronicle.run acts).host.sending = k.host.sending)
    (h : k.Does s t work) :
    Desk.Does { k with chronicle := k.chronicle.run acts } s t work := by
  -- only a writer says what the host sends, and only a run what the host has learnt
  cases work with
  | write sending =>
      cases sending with
      | none => exact ⟨h.1, h.2.1, (hs (h.2.1 ▸ nofun)).trans h.2.2⟩
      | some x => exact ⟨h.1, h.2.1, (hs (h.2.1 ▸ nofun)).trans h.2.2⟩
  | handle run pause =>
      obtain ⟨ht, hrun, hcall⟩ := h
      refine ⟨ht, ?_, ?_⟩
      · exact Chronicle.kept_acts (Q := fun h => h.Began run) (fun _ a hr => hr.step a) acts hrun
      · intro c hc
        exact Chronicle.kept_acts (Q := fun h => h.Knows c) (fun _ a hk => hk.step a) acts
          (hcall c hc)
  | _ => exact h

/-- What the writer does is no matter to the others. -/
theorem beside {a : Act Service} {writing : Writing} (ht : t ≠ Duo.writerTicket s)
    (h : k.Does s t work) :
    Desk.Does { k with chronicle := k.chronicle.act a, writing := writing } s t work := by
  cases work with
  | write sending =>
      cases sending with
      | none => exact absurd h.1 ht
      | some x => exact absurd h.1 ht
  | handle run pause => exact ⟨h.1, h.2.1.step a, fun c hc => (h.2.2 c hc).step a⟩
  | _ => exact h

theorem hear {task : Session.Task} (s' : Side) (x : Event Service) (h : k.Does s t task.work) :
    k.Does s t (task.hear s' x).work := by
  unfold Session.Task.hear
  split
  · next run call next hwork =>
      rw [hwork] at h
      obtain ⟨ht, hrun, hcall⟩ := h
      split
      · refine ⟨ht, hrun, fun c hc => ?_⟩
        obtain rfl := Option.some.inj hc
        exact (hcall call rfl).alike (.hear call x)
      · rw [hwork]
        exact ⟨ht, hrun, hcall⟩
  · exact h

end Desk.Does

namespace Session

/-- A task of a side that waits for a call waits for one of that side. -/
def Attends (w : Session) (s : Side) : Work → Prop
  | .awaitCall i _ => ∃ c, w.callers[i]? = some c ∧ c.side = s
  | _ => True

/-- What a session shows at a side. -/
structure Presents (w : Session) (s : Side) (k : Desk Service) : Prop where
  endpoint : (w.party? s).map Party.endpoint = some k.host.endpoint
  now : k.host.now = w.now
  sound : k.host.Sound
  tidy : k.host.Tidy
  /-- A run whose handler has ended has ended with it. -/
  concluded : ∀ p ∈ k.host.concluded, k.host.Gone p.1
  does : ∀ x ∈ w.tasks, x.2.side = s → k.Does s x.1 x.2.work
  reader : k.reading ≠ .ended →
    ∃ op holds, (Duo.readerTicket s, ⟨s, .read op, holds⟩) ∈ w.tasks
  writer : k.writing ≠ .ended →
    ∃ sending holds, (Duo.writerTicket s, ⟨s, .write sending, holds⟩) ∈ w.tasks
  callers : ∀ c ∈ w.callers, c.side = s → k.host.Knows c.call
  attends : ∀ x ∈ w.tasks, x.2.side = s → w.Attends s x.2.work

/-- The duo that a session shows. -/
structure Shows (w : Session) (d : Duo Service) : Prop where
  link : w.link = .memory d.pair
  tickets : (w.tasks.map Prod.fst).Nodup
  fresh : ∀ x ∈ w.tasks, x.1 < w.nextTicket
  high : 4 < w.nextTicket
  sides : ∀ s, w.Presents s (d.desk s)

variable {w w' : Session} {d : Duo Service} {s : Side} {k : Desk Service}

/-! ## What is told of a session -/

@[simp] theorem party?_modifyParty (w : Session) (s : Side) (f : Party → Party) :
    (w.modifyParty s f).party? s = (w.party? s).map f := by
  cases s <;> rfl

theorem party?_modifyParty_ne (w : Session) {s s' : Side} (h : s' ≠ s) (f : Party → Party) :
    (w.modifyParty s f).party? s' = w.party? s' := by
  cases s <;> cases s' <;> first | rfl | exact absurd rfl h

@[simp] theorem link_modifyParty (w : Session) (s : Side) (f : Party → Party) :
    (w.modifyParty s f).link = w.link := by
  cases s <;> rfl

@[simp] theorem now_modifyParty (w : Session) (s : Side) (f : Party → Party) :
    (w.modifyParty s f).now = w.now := by
  cases s <;> rfl

@[simp] theorem tasks_modifyParty (w : Session) (s : Side) (f : Party → Party) :
    (w.modifyParty s f).tasks = w.tasks := by
  cases s <;> rfl

@[simp] theorem nextTicket_modifyParty (w : Session) (s : Side) (f : Party → Party) :
    (w.modifyParty s f).nextTicket = w.nextTicket := by
  cases s <;> rfl

@[simp] theorem callers_modifyParty (w : Session) (s : Side) (f : Party → Party) :
    (w.modifyParty s f).callers = w.callers := by
  cases s <;> rfl

theorem Attends.of_eq {work : Work} (h : w.Attends s work) (hcallers : w'.callers = w.callers) :
    w'.Attends s work := by
  cases work with
  | awaitCall i dropped =>
      obtain ⟨c, hc, hside⟩ := h
      exact ⟨c, hcallers ▸ hc, hside⟩
  | _ => trivial

/-- A session that differs at most in the tasks of the other side. -/
theorem Presents.congr (h : w.Presents s k)
    (hparty : (w'.party? s).map Party.endpoint = (w.party? s).map Party.endpoint)
    (hnow : w'.now = w.now) (htasks : ∀ x, x.2.side = s → (x ∈ w'.tasks ↔ x ∈ w.tasks))
    (hcallers : w'.callers = w.callers) : w'.Presents s k where
  endpoint := hparty.trans h.endpoint
  now := h.now.trans hnow.symm
  sound := h.sound
  tidy := h.tidy
  concluded := h.concluded
  does x hx hs := h.does x ((htasks x hs).mp hx) hs
  reader hr := by
    obtain ⟨op, holds, hmem⟩ := h.reader hr
    exact ⟨op, holds, (htasks _ rfl).mpr hmem⟩
  writer hr := by
    obtain ⟨sending, holds, hmem⟩ := h.writer hr
    exact ⟨sending, holds, (htasks _ rfl).mpr hmem⟩
  callers := hcallers ▸ h.callers
  attends x hx hs := (h.attends x ((htasks x hs).mp hx) hs).of_eq hcallers

/-- Two sessions that differ only in who is ready, in holders, gates and records. -/
structure Same (w w' : Session) : Prop where
  link : w'.link = w.link
  party? : ∀ s, (w'.party? s).map Party.endpoint = (w.party? s).map Party.endpoint
  now : w'.now = w.now
  nextTicket : w'.nextTicket = w.nextTicket
  tasks : w'.tasks = w.tasks
  callers : w'.callers = w.callers

theorem Same.trans {w'' : Session} (h : w.Same w') (h' : w'.Same w'') : w.Same w'' where
  link := h'.link.trans h.link
  party? s := (h'.party? s).trans (h.party? s)
  now := h'.now.trans h.now
  nextTicket := h'.nextTicket.trans h.nextTicket
  tasks := h'.tasks.trans h.tasks
  callers := h'.callers.trans h.callers

theorem Same.symm (h : w.Same w') : w'.Same w where
  link := h.link.symm
  party? s := (h.party? s).symm
  now := h.now.symm
  nextTicket := h.nextTicket.symm
  tasks := h.tasks.symm
  callers := h.callers.symm

theorem Shows.same (h : w.Shows d) (hw : w.Same w') : w'.Shows d where
  link := hw.link.trans h.link
  tickets := hw.tasks ▸ h.tickets
  fresh := by
    rw [hw.nextTicket, hw.tasks]
    exact h.fresh
  high := hw.nextTicket ▸ h.high
  sides s := by
    apply (h.sides s).congr (hw.party? s) hw.now ?_ hw.callers
    intro x _
    rw [hw.tasks]

theorem same_wake (ts : List Ticket) (w : Session) : w.Same (w.wake ts) :=
  ⟨rfl, fun _ => rfl, rfl, rfl, rfl, rfl⟩

theorem same_again (t : Ticket) (w : Session) : w.Same (w.again t) :=
  ⟨rfl, fun _ => rfl, rfl, rfl, rfl, rfl⟩

theorem same_modifyParty (w : Session) (s : Side) {f : Party → Party}
    (hf : ∀ p, (f p).endpoint = p.endpoint) : w.Same (w.modifyParty s f) where
  link := w.link_modifyParty s f
  party? s' := by
    by_cases hs : s' = s
    · subst hs
      rw [party?_modifyParty, Option.map_map]
      refine congrArg (fun g => (w.party? s').map g) (funext fun p => ?_)
      exact hf p
    · rw [w.party?_modifyParty_ne hs]
  now := w.now_modifyParty s f
  nextTicket := w.nextTicket_modifyParty s f
  tasks := w.tasks_modifyParty s f
  callers := w.callers_modifyParty s f

theorem Shows.exists_party (h : w.Shows d) (s : Side) :
    ∃ p, w.party? s = some p ∧ p.endpoint = (d.host s).endpoint :=
  Option.map_eq_some_iff.mp (h.sides s).endpoint

theorem Shows.isOpen_eq (h : w.Shows d) (s : Side) :
    w.isOpen s = (d.host s).endpoint.isOpen := by
  obtain ⟨p, hp, he⟩ := h.exists_party s
  show (w.party? s).any _ = _
  rw [hp, ← he]
  rfl

/-- Two tasks with the same ticket are one. -/
theorem Shows.task_eq (h : w.Shows d) {x y : Ticket × Task} (hx : x ∈ w.tasks) (hy : y ∈ w.tasks)
    (hxy : x.1 = y.1) : x = y :=
  List.inj_on_of_nodup_map h.tickets hx hy hxy

/-! ## One side goes on -/

/-- A session that shows something else at one side. -/
theorem Shows.put (h : w.Shows d) {p : Memory.Pair} (hlink : w'.link = .memory p)
    (hnext : w'.nextTicket = w.nextTicket)
    (htickets : (w'.tasks.map Prod.fst).Sublist (w.tasks.map Prod.fst))
    (hself : w'.Presents s k) (hother : ∀ s', s' ≠ s → w'.Presents s' (d.desk s')) :
    w'.Shows (d.put s p k) where
  link := hlink
  tickets := htickets.nodup h.tickets
  fresh := by
    intro x hx
    obtain ⟨y, hy, hyx⟩ := List.mem_map.mp (htickets.subset (List.mem_map_of_mem hx))
    rw [hnext, ← hyx]
    exact h.fresh y hy
  high := hnext ▸ h.high
  sides s' := by
    by_cases hs : s' = s
    · subst hs
      rw [Duo.desk_put]
      exact hself
    · rw [d.desk_put_ne hs]
      exact hother s' hs

/-- A session on another pair. -/
theorem Shows.setLink (h : w.Shows d) (s : Side) (p : Memory.Pair) (wakes : List Ticket) :
    (w.setLink (.memory p) wakes).Shows (d.put s p (d.desk s)) := by
  have hsides : ∀ s', (w.setLink (.memory p) wakes).Presents s' (d.desk s') := by
    intro s'
    exact (h.sides s').congr rfl rfl (fun _ _ => Iff.rfl) rfl
  exact h.put rfl rfl (List.Sublist.refl _) (hsides s) fun s' _ => hsides s'

/-! ## Steps of endpoints -/

theorem side_hear (s : Side) (x : Event Service) (task : Task) : (task.hear s x).side = task.side := by
  unfold Task.hear
  split
  · split <;> rfl
  · rfl

/-- A session in which tasks and callers are as far as before, and loops are where they were. -/
theorem Presents.map (h : w.Presents s k) {g : Ticket → Task → Task} {f : Caller → Caller}
    (hparty : (w'.party? s).map Party.endpoint = (w.party? s).map Party.endpoint)
    (hnow : w'.now = w.now) (htasks : w'.tasks = w.tasks.map fun x => (x.1, g x.1 x.2))
    (hcallers : w'.callers = w.callers.map f)
    (hside : ∀ t task, (g t task).side = task.side)
    (hread : ∀ t op holds, ∃ holds', g t ⟨s, .read op, holds⟩ = ⟨s, .read op, holds'⟩)
    (hwrite : ∀ t x holds, ∃ holds', g t ⟨s, .write x, holds⟩ = ⟨s, .write x, holds'⟩)
    (hawait : ∀ t task i dropped, (g t task).work = .awaitCall i dropped →
      task.work = .awaitCall i dropped)
    (hdoes : ∀ t task, k.Does s t task.work → k.Does s t (g t task).work)
    (hcaller : ∀ c, (f c).side = c.side)
    (hknows : ∀ c, c.side = s → k.host.Knows c.call → k.host.Knows (f c).call) :
    w'.Presents s k where
  endpoint := hparty.trans h.endpoint
  now := h.now.trans hnow.symm
  sound := h.sound
  tidy := h.tidy
  concluded := h.concluded
  does := by
    intro y hy hs
    rw [htasks] at hy
    obtain ⟨x, hx, rfl⟩ := List.mem_map.mp hy
    exact hdoes x.1 x.2 (h.does x hx ((hside _ _).symm.trans hs))
  reader hr := by
    obtain ⟨op, holds, hmem⟩ := h.reader hr
    obtain ⟨holds', hg⟩ := hread (Duo.readerTicket s) op holds
    exact ⟨op, holds', htasks ▸ List.mem_map.mpr ⟨_, hmem, congrArg _ hg⟩⟩
  writer hr := by
    obtain ⟨sending, holds, hmem⟩ := h.writer hr
    obtain ⟨holds', hg⟩ := hwrite (Duo.writerTicket s) sending holds
    exact ⟨sending, holds', htasks ▸ List.mem_map.mpr ⟨_, hmem, congrArg _ hg⟩⟩
  callers := by
    intro c hc hs
    rw [hcallers] at hc
    obtain ⟨c', hc', rfl⟩ := List.mem_map.mp hc
    have hside := (hcaller c').symm.trans hs
    exact hknows c' hside (h.callers c' hc' hside)
  attends := by
    intro y hy hs
    rw [htasks] at hy
    obtain ⟨x, hx, rfl⟩ := List.mem_map.mp hy
    have hbefore := h.attends x hx ((hside _ _).symm.trans hs)
    cases hwork : (g x.1 x.2).work with
    | awaitCall i dropped =>
        -- callers keep their places, so whoever waits for one still finds it
        rw [hawait x.1 x.2 i dropped hwork] at hbefore
        obtain ⟨c, hc, hcs⟩ := hbefore
        refine ⟨f c, ?_, (hcaller c).trans hcs⟩
        rw [hcallers, List.getElem?_map, hc]
        rfl
    | _ => trivial

/-- Everyone who holds a call takes note of what has become of it. -/
theorem Presents.hear {s' : Side} (h : w.Presents s' k) (x : Event Service) :
    Presents { w with
      callers := w.callers.map (·.hear s x),
      tasks := w.tasks.map fun (t, task) => (t, task.hear s x) } s' k := by
  refine h.map (g := fun _ task => task.hear s x) rfl rfl rfl rfl ?_ ?_ ?_ ?_ ?_ ?_ ?_
  · exact fun _ task => side_hear s x task
  · exact fun _ _ holds => ⟨holds, rfl⟩
  · exact fun _ _ holds => ⟨holds, rfl⟩
  · intro _ task i dropped hwork
    unfold Task.hear at hwork
    split at hwork
    · next heq =>
        split at hwork
        · cases hwork
        · exact hwork
    · exact hwork
  · exact fun _ _ hdoes => hdoes.hear s x
  · intro c
    unfold Caller.hear
    split <;> rfl
  · intro c _ hknows
    unfold Caller.hear
    split
    · exact hknows.alike (.hear c.call x)
    · exact hknows

/-- It is no matter which tasks hold endpoints. -/
theorem Shows.setHolds (h : w.Shows d) (t : Ticket) (holds : Bool) :
    (w.modifyTask t fun task => { task with holds := holds }).Shows d := by
  have htasks : (w.modifyTask t fun task => { task with holds := holds }).tasks = w.tasks.map
      fun x => (x.1, if x.1 = t then { x.2 with holds := holds } else x.2) := by
    refine List.map_congr_left fun x _ => ?_
    dsimp only
    split <;> rfl
  refine ⟨h.link, ?_, ?_, h.high, fun s => ?_⟩
  · rw [htasks, List.map_map]
    exact h.tickets
  · intro x hx
    rw [htasks] at hx
    obtain ⟨y, hy, rfl⟩ := List.mem_map.mp hx
    exact h.fresh y hy
  · refine (h.sides s).map (f := id)
      (g := fun u task => if u = t then { task with holds := holds } else task) rfl rfl htasks
      (List.map_id _).symm ?_ ?_ ?_ ?_ ?_ ?_ ?_
    · intro u task
      split <;> rfl
    · intro u op holds'
      split <;> exact ⟨_, rfl⟩
    · intro u x holds'
      split <;> exact ⟨_, rfl⟩
    · intro u task i dropped hwork
      split at hwork <;> exact hwork
    · intro u task hdoes
      split <;> exact hdoes
    · exact fun _ => rfl
    · exact fun _ _ hknows => hknows

/-- A task is started that is no loop. -/
theorem Shows.spawn (h : w.Shows d) (work : Work) (holds : Bool)
    (hdoes : (d.desk s).Does s w.nextTicket work) (hattends : w.Attends s work) :
    (w.spawn s work holds).Shows d := by
  have hmem : ∀ x, x ∈ (w.spawn s work holds).tasks ↔
      x ∈ w.tasks ∨ x = (w.nextTicket, ⟨s, work, holds⟩) := by
    intro x
    show x ∈ w.tasks ++ [_] ↔ _
    rw [List.mem_append, List.mem_singleton]
  refine ⟨h.link, ?_, ?_, Nat.lt_succ_of_lt h.high, fun s' => ?_⟩
  · -- its ticket is greater than all others
    show ((w.tasks ++ [_]).map Prod.fst).Nodup
    rw [List.map_append, List.nodup_append]
    refine ⟨h.tickets, List.nodup_singleton _, fun t ht t' ht' => ?_⟩
    obtain ⟨x, hx, rfl⟩ := List.mem_map.mp ht
    obtain rfl := List.mem_singleton.mp ht'
    exact Nat.ne_of_lt (h.fresh x hx)
  · intro x hx
    show x.1 < w.nextTicket + 1
    rcases (hmem x).mp hx with hx | rfl
    · exact Nat.lt_succ_of_lt (h.fresh x hx)
    · exact Nat.lt_succ_self _
  · obtain ⟨hendpoint, hnow, hsound, htidy, hconcluded, hdo, hreader, hwriter, hcallers,
      hattend⟩ := h.sides s'
    refine ⟨hendpoint, hnow, hsound, htidy, hconcluded, ?_, ?_, ?_, hcallers, ?_⟩
    · intro x hx hs
      rcases (hmem x).mp hx with hx | rfl
      · exact hdo x hx hs
      · obtain rfl : s = s' := hs
        exact hdoes
    · intro hr
      obtain ⟨op, holds, hx⟩ := hreader hr
      exact ⟨op, holds, (hmem _).mpr (Or.inl hx)⟩
    · intro hr
      obtain ⟨sending, holds, hx⟩ := hwriter hr
      exact ⟨sending, holds, (hmem _).mpr (Or.inl hx)⟩
    · intro x hx hs
      rcases (hmem x).mp hx with hx | rfl
      · exact (hattend x hx hs).of_eq rfl
      · obtain rfl : s = s' := hs
        exact hattends.of_eq rfl

/-- Whoever learns of an event, the duo that the session shows is the same. -/
theorem Shows.hear (h : w.Shows d) {x : Event Service}
    (hx : ∀ run, x = .started run → (d.host s).Began run) : (Session.hear s w x).Shows d := by
  cases x with
  | settled id r =>
      refine Shows.same ?_ (same_wake _ _)
      refine ⟨h.link, ?_, ?_, h.high, fun s' => (h.sides s').hear _⟩
      · show ((w.tasks.map _).map Prod.fst).Nodup
        rw [List.map_map]
        exact h.tickets
      · intro x hx
        obtain ⟨y, hy, rfl⟩ := List.mem_map.mp hx
        exact h.fresh y hy
  | started run =>
      refine h.spawn _ false ⟨h.high, hx run rfl, fun c hc => ?_⟩ trivial
      cases hc
  | queued o => exact h.same (same_wake _ _)
  | fired serial => exact h.same (same_wake _ _)
  | closed => exact h.same (same_wake _ _)
  | halted => exact h.same (same_wake _ _)

theorem Shows.hears (events : List (Event Service)) (h : w.Shows d)
    (hx : ∀ run ∈ startedIn events, (d.host s).Began run) :
    (events.foldl (Session.hear s) w).Shows d := by
  induction events generalizing w with
  | nil => exact h
  | cons x events ih =>
      -- the duo is the one that the session shows after the whole step, and stays so
      apply ih
      · apply h.hear
        rintro run rfl
        exact hx run List.mem_cons_self
      · intro run hrun
        apply hx
        rw [startedIn, List.filterMap_cons]
        split
        · exact hrun
        · exact List.mem_cons_of_mem _ hrun

/-- **A step of an endpoint.** The session shows the duo after the acts that make it. -/
theorem Shows.takes (h : w.Shows d) (acts : List (Act Service)) (step : Endpoint.Step Service)
    {c : Chronicle Service} (hc : (d.desk s).chronicle.run acts = c)
    (hendpoint : c.host.endpoint = step.1) (hbegan : ∀ run ∈ startedIn step.2, c.host.Began run)
    (hnow : c.host.now = (d.host s).now)
    (hsending : (d.desk s).writing ≠ .ended → c.host.sending = (d.host s).sending)
    (hgone : ∀ p ∈ c.host.concluded, c.host.Gone p.1) :
    (w.take s step).Shows (d.put s d.pair { d.desk s with chronicle := c }) := by
  subst hc
  -- the endpoint is set first, and then everyone is told what has happened
  apply Shows.hears step.2
  · refine h.put ?_ ?_ ?_ ?_ ?_
    · exact (w.link_modifyParty s _).trans h.link
    · exact w.nextTicket_modifyParty s _
    · rw [setEndpoint, tasks_modifyParty]
    · obtain ⟨-, hnow', hsound, htidy, -, hdo, hreader, hwriter, hcallers, hattend⟩ := h.sides s
      refine ⟨?_, ?_, ?_, ?_, hgone, ?_, ?_, ?_, ?_, ?_⟩
      · obtain ⟨p, hp, -⟩ := h.exists_party s
        rw [setEndpoint, party?_modifyParty, hp]
        exact congrArg some hendpoint.symm
      · exact (hnow.trans hnow').trans (w.now_modifyParty s _).symm
      · exact Chronicle.kept_acts (Q := Host.Sound) (fun _ a hh => hh.step a) acts hsound
      · exact Chronicle.kept_acts (Q := Host.Tidy) (fun _ a hh => hh.step a) acts htidy
      · intro x hx hs
        rw [setEndpoint, tasks_modifyParty] at hx
        exact (hdo x hx hs).run acts hsending
      · rw [setEndpoint, tasks_modifyParty]
        exact hreader
      · rw [setEndpoint, tasks_modifyParty]
        exact hwriter
      · intro call hcall hs
        rw [setEndpoint, callers_modifyParty] at hcall
        exact Chronicle.kept_acts (Q := fun h => h.Knows call.call) (fun _ a hk => hk.step a) acts
          (hcallers call hcall hs)
      · intro x hx hs
        rw [setEndpoint, tasks_modifyParty] at hx
        exact (hattend x hx hs).of_eq (w.callers_modifyParty s _)
    · intro s' hs
      refine (h.sides s').congr ?_ (w.now_modifyParty s _) ?_ (w.callers_modifyParty s _)
      · rw [setEndpoint, w.party?_modifyParty_ne hs]
      · intro x _
        rw [setEndpoint, tasks_modifyParty]
  · intro run hrun
    show Host.Began ((d.put s _ _).desk s).host run
    rw [Duo.desk_put]
    exact hbegan run hrun

/-- A step of an endpoint that one act makes. -/
theorem Shows.take (h : w.Shows d) (a : Act Service) (step : Endpoint.Step Service)
    (hendpoint : ((d.host s).step a).1.endpoint = step.1)
    (hevents : ((d.host s).step a).2 = step.2)
    (hnow : ((d.host s).step a).1.now = (d.host s).now)
    (hsending : ((d.host s).step a).1.sending = (d.host s).sending)
    (hconcluded : ((d.host s).step a).1.concluded = (d.host s).concluded) :
    (w.take s step).Shows
      (d.put s d.pair { d.desk s with chronicle := (d.desk s).chronicle.act a }) := by
  refine h.takes [a] step rfl hendpoint ?_ hnow (fun _ => hsending) ?_
  · intro run hrun
    exact (h.sides s).tidy.began (hevents ▸ hrun)
  · intro p hp
    exact ((h.sides s).concluded p (hconcluded ▸ hp)).step a

end Session

end PeerRpc
