import PeerRpc.Proofs.Duo.Leads
import PeerRpc.Proofs.Session.Shows

/-!
# PeerRpc.Proofs.Session.Tasks -- tasks that go on or end

A task goes on with something else (`Shows.setWork`) or ends (`Shows.without`); if it is a loop, the
desk of the duo says so. With its last task a side may lose its last holder: the endpoint is closed
then, and its end of the pair is let go of once its loops have ended (`Shows.release`,
`Shows.endTask`).
-/

namespace PeerRpc

namespace Session

variable {w w' : Session} {d : Duo Service} {s : Side} {k : Desk Service} {t : Ticket}

/-! ## Tasks that go on or end -/

/-- A ticket that is in use, by nobody but a task of this side. -/
structure Owns (w : Session) (s : Side) (t : Ticket) : Prop where
  used : t < w.nextTicket
  side : ∀ x ∈ w.tasks, x.1 = t → x.2.side = s

theorem Shows.owns (h : w.Shows d) {task : Task} (ht : (t, task) ∈ w.tasks) :
    w.Owns task.side t := by
  refine ⟨h.fresh _ ht, fun x hx hxt => ?_⟩
  rw [h.task_eq hx ht hxt]

/-- A desk with the same chronicle does for a task if the loop that it may be is where it was. -/
theorem does_of_chronicle {k k' : Desk Service} {work : Work} (hk : k'.chronicle = k.chronicle)
    (hr : t = Duo.readerTicket s → k'.reading = k.reading)
    (hw : t = Duo.writerTicket s → k'.writing = k.writing) (h : k.Does s t work) :
    k'.Does s t work := by
  have hhost : k'.host = k.host := congrArg Chronicle.host hk
  cases work with
  | read op => exact ⟨h.1, (hr h.1).trans h.2⟩
  | write sending =>
      cases sending with
      | none => exact ⟨h.1, (hw h.1).trans h.2.1, hhost ▸ h.2.2⟩
      | some x => exact ⟨h.1, (hw h.1).trans h.2.1, hhost ▸ h.2.2⟩
  | handle run pause =>
      unfold Desk.Does at h ⊢
      rw [hhost]
      exact h
  | _ => exact h

theorem mem_setWork (w : Session) (t : Ticket) (work : Work) (x : Ticket × Task) :
    x ∈ (w.setWork t work).tasks ↔
      (x ∈ w.tasks ∧ x.1 ≠ t) ∨ ∃ task, (t, task) ∈ w.tasks ∧ x = (t, { task with work := work }) := by
  show x ∈ w.tasks.map _ ↔ _
  rw [List.mem_map]
  constructor
  · rintro ⟨⟨u, task⟩, hx, rfl⟩
    by_cases hu : u = t
    · subst hu
      exact Or.inr ⟨task, hx, if_pos rfl⟩
    · dsimp only
      rw [if_neg hu]
      exact Or.inl ⟨hx, hu⟩
  · rintro (⟨hx, hne⟩ | ⟨task, hx, rfl⟩)
    · exact ⟨x, hx, if_neg hne⟩
    · exact ⟨_, hx, if_pos rfl⟩

/-- What a task goes on with is nothing to the tasks of the other side. -/
theorem Owns.mem_setWork_iff (h : w.Owns s t) {work : Work} {x : Ticket × Task}
    (hx : x.2.side ≠ s) : x ∈ (w.setWork t work).tasks ↔ x ∈ w.tasks := by
  rw [mem_setWork]
  constructor
  · rintro (⟨hmem, -⟩ | ⟨task, hmem, rfl⟩)
    · exact hmem
    · exact absurd (h.side _ hmem rfl) hx
  · exact fun hmem => Or.inl ⟨hmem, fun hxt => hx (h.side x hmem hxt)⟩

/-- A task keeps its ticket. -/
theorem tickets_setWork (w : Session) (t : Ticket) (work : Work) :
    (w.setWork t work).tasks.map Prod.fst = w.tasks.map Prod.fst := by
  show (w.tasks.map _).map Prod.fst = _
  rw [List.map_map]
  refine List.map_congr_left fun x _ => ?_
  show (if x.1 = t then _ else _ : Ticket × Task).1 = x.1
  split <;> rfl

/-- A task goes on with something else. If it is a loop, the desk says where it is. -/
theorem Shows.setWork (h : w.Shows d) {work : Work} (hown : w.Owns s t)
    (hk : k.chronicle = (d.desk s).chronicle) (hnew : k.Does s t work)
    (hattends : w.Attends s work)
    (hr : t ≠ Duo.readerTicket s → k.reading = (d.desk s).reading)
    (hw : t ≠ Duo.writerTicket s → k.writing = (d.desk s).writing)
    (hread : t = Duo.readerTicket s → (d.desk s).reading ≠ .ended ∧ ∃ op, work = .read op)
    (hwrite : t = Duo.writerTicket s → (d.desk s).writing ≠ .ended ∧ ∃ x, work = .write x) :
    (w.setWork t work).Shows (d.put s d.pair k) := by
  have hmem := w.mem_setWork t work
  have hhost : k.host = (d.desk s).host := congrArg Chronicle.host hk
  refine h.put h.link rfl ?_ ?_ ?_
  · rw [w.tickets_setWork]
  · obtain ⟨hendpoint, hnow, hsound, htidy, hconcluded, hdo, hreader, hwriter, hcallers,
      hattend⟩ := h.sides s
    rw [← hhost] at hendpoint hnow hsound htidy hconcluded hcallers
    refine ⟨hendpoint, hnow, hsound, htidy, hconcluded, ?_, ?_, ?_, hcallers, ?_⟩
    · intro x hx hs
      rcases (hmem x).mp hx with ⟨hx, hne⟩ | ⟨task, hx, rfl⟩
      · apply does_of_chronicle hk ?_ ?_ (hdo x hx hs)
        · intro hxr
          exact hr fun htr => hne (hxr.trans htr.symm)
        · intro hxw
          exact hw fun htw => hne (hxw.trans htw.symm)
      · exact hnew
    · intro hend
      by_cases htr : t = Duo.readerTicket s
      · -- the reader itself goes on
        obtain ⟨hbefore, op, rfl⟩ := hread htr
        obtain ⟨op₀, holds, hx⟩ := hreader hbefore
        exact ⟨op, holds, (hmem _).mpr (Or.inr ⟨_, htr ▸ hx, by rw [htr]⟩)⟩
      · obtain ⟨op, holds, hx⟩ := hreader (hr htr ▸ hend)
        exact ⟨op, holds, (hmem _).mpr (Or.inl ⟨hx, Ne.symm htr⟩)⟩
    · intro hend
      by_cases htw : t = Duo.writerTicket s
      · obtain ⟨hbefore, sending, rfl⟩ := hwrite htw
        obtain ⟨x₀, holds, hx⟩ := hwriter hbefore
        exact ⟨sending, holds, (hmem _).mpr (Or.inr ⟨_, htw ▸ hx, by rw [htw]⟩)⟩
      · obtain ⟨sending, holds, hx⟩ := hwriter (hw htw ▸ hend)
        exact ⟨sending, holds, (hmem _).mpr (Or.inl ⟨hx, Ne.symm htw⟩)⟩
    · intro x hx hs
      rcases (hmem x).mp hx with ⟨hx, -⟩ | ⟨task, -, rfl⟩
      · exact (hattend x hx hs).of_eq rfl
      · exact hattends.of_eq rfl
  · intro s' hs
    refine (h.sides s').congr rfl rfl (fun x hxs => ?_) rfl
    exact hown.mem_setWork_iff fun hside => hs (hxs.symm.trans hside)

theorem Owns.setLink (h : w.Owns s t) (link : Link) (wakes : List Ticket) :
    (w.setLink link wakes).Owns s t := ⟨h.used, h.side⟩

theorem Owns.setWork (h : w.Owns s t) (u : Ticket) (work : Work) :
    (w.setWork u work).Owns s t := by
  refine ⟨h.used, fun x hx hxt => ?_⟩
  rcases (w.mem_setWork u work x).mp hx with ⟨hx, -⟩ | ⟨task, htask, rfl⟩
  · exact h.side x hx hxt
  · exact h.side (u, task) htask hxt

/-- A task that begins gets a ticket that is not in use. -/
theorem Owns.hear (h : w.Owns s t) (s' : Side) (x : Event Service) :
    (Session.hear s' w x).Owns s t := by
  cases x with
  | settled id r =>
      refine ⟨h.used, fun y hy hyt => ?_⟩
      obtain ⟨x, hx, rfl⟩ := List.mem_map.mp hy
      exact (side_hear s' _ x.2).trans (h.side x hx hyt)
  | started run =>
      refine ⟨Nat.lt_succ_of_lt h.used, fun y hy hyt => ?_⟩
      rcases List.mem_append.mp hy with hy | hy
      · exact h.side y hy hyt
      · obtain rfl := List.mem_singleton.mp hy
        exact absurd hyt.symm (Nat.ne_of_lt h.used)
  | _ => exact ⟨h.used, h.side⟩

/-- What is so once the endpoint of a side is set, and stays so with every event, is so after a
step. -/
theorem take_induction {P : Session → Prop} {step : Endpoint.Step Service}
    (hset : P (w.setEndpoint s step.1)) (hhear : ∀ w' x, P w' → P (hear s w' x)) :
    P (w.take s step) := by
  have hears : ∀ (events : List (Event Service)) (w' : Session), P w' →
      P (events.foldl (hear s) w') := by
    intro events
    induction events with
    | nil => exact fun _ h' => h'
    | cons x rest ih => exact fun w' h' => ih _ (hhear w' x h')
  exact hears step.2 _ hset

theorem Owns.take (h : w.Owns s t) (s' : Side) (step : Endpoint.Step Service) :
    (w.take s' step).Owns s t := by
  apply take_induction (P := fun w' => w'.Owns s t) ?_ fun _ x h' => h'.hear s' x
  refine ⟨?_, ?_⟩
  · rw [setEndpoint, nextTicket_modifyParty]
    exact h.used
  · rw [setEndpoint, tasks_modifyParty]
    exact h.side

/-- The session without a task. -/
def without (t : Ticket) (w : Session) : Session :=
  { w with tasks := w.tasks.filter fun x => x.1 ≠ t }

/-- A task that ends is none of the tasks of the other side. -/
theorem Owns.mem_without_iff (h : w.Owns s t) {x : Ticket × Task} (hx : x.2.side ≠ s) :
    x ∈ (w.without t).tasks ↔ x ∈ w.tasks := by
  show x ∈ w.tasks.filter _ ↔ _
  rw [List.mem_filter, decide_eq_true_eq]
  exact and_iff_left_of_imp fun hmem hxt => hx (h.side x hmem hxt)

theorem setWork_setWork (w : Session) (t : Ticket) (work work' : Work) :
    (w.setWork t work).setWork t work' = w.setWork t work' := by
  unfold setWork modifyTask
  dsimp only
  rw [List.map_map]
  congr 1
  refine List.map_congr_left fun x _ => ?_
  obtain ⟨u, task⟩ := x
  by_cases hu : u = t
  · simp only [Function.comp_apply, if_pos hu]
  · simp only [Function.comp_apply, if_neg hu]

theorem without_setWork (w : Session) (t : Ticket) (work : Work) :
    (w.setWork t work).without t = w.without t := by
  unfold Session.without setWork modifyTask
  dsimp only
  congr 1
  induction w.tasks with
  | nil => rfl
  | cons x rest ih =>
      obtain ⟨u, task⟩ := x
      rw [List.map_cons]
      by_cases hu : u = t
      · rw [if_pos hu, List.filter_cons_of_neg (by simpa using hu),
          List.filter_cons_of_neg (by simpa using hu), ih]
      · rw [if_neg hu, List.filter_cons_of_pos (by simpa using hu),
          List.filter_cons_of_pos (by simpa using hu), ih]

/-- A task ends. If it is a loop, the desk says so. -/
theorem Shows.without (h : w.Shows d) (hown : w.Owns s t)
    (hk : k.chronicle = (d.desk s).chronicle)
    (hr : t ≠ Duo.readerTicket s → k.reading = (d.desk s).reading)
    (hw : t ≠ Duo.writerTicket s → k.writing = (d.desk s).writing)
    (hread : t = Duo.readerTicket s → k.reading = .ended)
    (hwrite : t = Duo.writerTicket s → k.writing = .ended) :
    (w.without t).Shows (d.put s d.pair k) := by
  have hmem : ∀ x, x ∈ w.tasks.filter (fun x => x.1 ≠ t) ↔ x ∈ w.tasks ∧ x.1 ≠ t := by
    intro x
    rw [List.mem_filter, decide_eq_true_eq]
  have hhost : k.host = (d.desk s).host := congrArg Chronicle.host hk
  refine h.put h.link rfl (List.filter_sublist.map Prod.fst) ?_ ?_
  · obtain ⟨hendpoint, hnow, hsound, htidy, hconcluded, hdo, hreader, hwriter, hcallers,
      hattend⟩ := h.sides s
    rw [← hhost] at hendpoint hnow hsound htidy hconcluded hcallers
    refine ⟨hendpoint, hnow, hsound, htidy, hconcluded, ?_, ?_, ?_, hcallers, ?_⟩
    · intro x hx hs
      obtain ⟨hx, hne⟩ := (hmem x).mp hx
      apply does_of_chronicle hk ?_ ?_ (hdo x hx hs)
      · intro hxr
        exact hr fun htr => hne (hxr.trans htr.symm)
      · intro hxw
        exact hw fun htw => hne (hxw.trans htw.symm)
    · intro hend
      have htr : t ≠ Duo.readerTicket s := fun htr => hend (hread htr)
      obtain ⟨op, holds, hx⟩ := hreader (hr htr ▸ hend)
      exact ⟨op, holds, (hmem _).mpr ⟨hx, Ne.symm htr⟩⟩
    · intro hend
      have htw : t ≠ Duo.writerTicket s := fun htw => hend (hwrite htw)
      obtain ⟨sending, holds, hx⟩ := hwriter (hw htw ▸ hend)
      exact ⟨sending, holds, (hmem _).mpr ⟨hx, Ne.symm htw⟩⟩
    · intro x hx hs
      exact (hattend x ((hmem x).mp hx).1 hs).of_eq rfl
  · intro s' hs
    refine (h.sides s').congr rfl rfl (fun x hxs => ?_) rfl
    exact hown.mem_without_iff fun hside => hs (hxs.symm.trans hside)

/-- Who is told of an event does not depend on a task that is about to end, but for who is ready. -/
theorem same_hear (s : Side) (h : w.Same w') (x : Event Service) :
    (hear s w x).Same (hear s w' x) := by
  obtain ⟨hlink, hparty, hnow, hnext, htasks, hcallers⟩ := h
  cases x with
  | settled id r =>
      refine ⟨hlink, hparty, hnow, hnext, ?_, ?_⟩
      · exact congrArg (List.map fun x : Ticket × Task => (x.1, x.2.hear s (.settled id r))) htasks
      · exact congrArg (List.map (Caller.hear s (.settled id r))) hcallers
  | started run =>
      refine ⟨hlink, hparty, hnow, congrArg (· + 1) hnext, ?_, hcallers⟩
      show w'.tasks ++ [_] = w.tasks ++ [_]
      rw [htasks, hnext]
  | queued o => exact ⟨hlink, hparty, hnow, hnext, htasks, hcallers⟩
  | fired serial => exact ⟨hlink, hparty, hnow, hnext, htasks, hcallers⟩
  | closed => exact ⟨hlink, hparty, hnow, hnext, htasks, hcallers⟩
  | halted => exact ⟨hlink, hparty, hnow, hnext, htasks, hcallers⟩

theorem same_hear_without (s : Side) (t : Ticket) (w : Session) {x : Event Service}
    (hx : ∀ run, x ≠ .started run) : ((hear s w x).without t).Same (hear s (w.without t) x) := by
  cases x with
  | settled id r =>
      refine ⟨rfl, fun _ => rfl, rfl, rfl, ?_, rfl⟩
      show (w.tasks.filter _).map _ = (w.tasks.map _).filter _
      rw [List.filter_map]
      rfl
  | started run => exact absurd rfl (hx run)
  | _ => exact ⟨rfl, fun _ => rfl, rfl, rfl, rfl, rfl⟩

/-- Unless runs begin, a task may as well end before events are told of as after. -/
theorem same_hears_without (s : Side) (t : Ticket) {events : List (Event Service)}
    (hevents : startedIn events = []) (h : (w.without t).Same w') :
    ((events.foldl (hear s) w).without t).Same (events.foldl (hear s) w') := by
  -- no run begins, so no task is added that would have to be told from this one
  induction events generalizing w w' with
  | nil => exact h
  | cons x rest ih =>
      have hx : ∀ run, x ≠ .started run := by
        rintro run rfl
        cases hevents
      have hrest : startedIn rest = [] := by
        rw [startedIn, List.filterMap_cons_none] at hevents
        · exact hevents
        · cases x with
          | started run => exact absurd rfl (hx run)
          | _ => rfl
      apply ih hrest
      exact (same_hear_without s t w hx).trans (same_hear s h x)

theorem same_take_without (s : Side) (t : Ticket) (w : Session) {step : Endpoint.Step Service}
    (hstep : startedIn step.2 = []) :
    ((w.take s step).without t).Same ((w.without t).take s step) := by
  apply same_hears_without s t hstep
  cases s <;> exact ⟨rfl, fun _ => rfl, rfl, rfl, rfl, rfl⟩

/-! ## Letting go of an endpoint -/

/-- A pair is closed at once. -/
theorem closeChannel_memory {p : Memory.Pair} (h : w.link = .memory p) (t : Ticket) (s : Side)
    (op : Link.Closing) :
    w.closeChannel t s op = (w.setLink (.memory p.close.1) p.close.2, none) := by
  unfold closeChannel
  rw [h]
  dsimp only
  rw [h]
  rfl

theorem atEndpoint_of_party {e : Endpoint Service}
    (h : (w.party? s).map Party.endpoint = some e) (f : Endpoint Service → Endpoint.Step Service) :
    w.atEndpoint s f = w.take s (f e) := by
  obtain ⟨p, hp, rfl⟩ := Option.map_eq_some_iff.mp h
  unfold Session.atEndpoint
  rw [hp]

theorem Shows.atEndpoint_eq (h : w.Shows d) (s : Side)
    (f : Endpoint Service → Endpoint.Step Service) :
    w.atEndpoint s f = w.take s (f (d.host s).endpoint) :=
  atEndpoint_of_party (h.sides s).endpoint f

/-- An act at the desk of a side that is about to be put back. -/
theorem Shows.act {p : Memory.Pair} (h : w.Shows (d.put s p k)) {a : Act Service}
    {f : Endpoint Service → Endpoint.Step Service}
    (hendpoint : (k.host.step a).1.endpoint = (f k.host.endpoint).1)
    (hevents : (k.host.step a).2 = (f k.host.endpoint).2)
    (hnow : (k.host.step a).1.now = k.host.now)
    (hsending : (k.host.step a).1.sending = k.host.sending)
    (hconcluded : (k.host.step a).1.concluded = k.host.concluded) :
    (w.atEndpoint s f).Shows
      (d.put s p { k with chronicle := k.chronicle.act a }) := by
  have hhost : (d.put s p k).host s = k.host := congrArg Desk.host (d.desk_put s p k)
  have htake := h.take (s := s) a (f k.host.endpoint)
    (hhost ▸ hendpoint) (hhost ▸ hevents) (hhost ▸ hnow) (hhost ▸ hsending) (hhost ▸ hconcluded)
  rw [Duo.put_put, Duo.desk_put] at htake
  rw [h.atEndpoint_eq, hhost]
  exact htake

theorem same_setEndpoint {e : Endpoint Service} (h : (w.party? s).map Party.endpoint = some e) :
    w.Same (w.setEndpoint s e) where
  link := w.link_modifyParty s _
  party? s' := by
    by_cases hs : s' = s
    · subst hs
      obtain ⟨p, hp, rfl⟩ := Option.map_eq_some_iff.mp h
      rw [setEndpoint, party?_modifyParty, hp]
      rfl
    · rw [setEndpoint, w.party?_modifyParty_ne hs]
  now := w.now_modifyParty s _
  nextTicket := w.nextTicket_modifyParty s _
  tasks := w.tasks_modifyParty s _
  callers := w.callers_modifyParty s _

theorem Shows.close (h : w.Shows d) (s : Side) :
    (w.atEndpoint s Endpoint.close).Shows (d.move (.op s .close)) := by
  rw [h.atEndpoint_eq]
  exact h.take (.op .close) _ rfl rfl rfl rfl rfl

/-- An endpoint that nobody holds is closed, and its end of the pair is let go of once nothing uses
it any more. -/
theorem Shows.release (h : w.Shows d) (s : Side) : d.Leads (w.release s).Shows := by
  unfold Session.release
  split
  · exact .here h
  · apply Duo.Leads.move (.op s .close) trivial
    have hclosed := h.close s
    generalize d.move (.op s .close) = d' at hclosed
    dsimp only
    generalize w.atEndpoint s Endpoint.close = w' at hclosed
    split
    · exact .here hclosed
    · next p hp =>
        split
        · exact .here hclosed
        · next hkeep =>
            -- no loop of the side is left, so the duo lets go of the end as well
            have hnone : ∀ x ∈ w'.tasks, x.2.side = s → x.2.work.keepsChannel = false := by
              intro x hx hs
              have hany : ¬(w'.tasksOf s).any (·.work.keepsChannel) = true := by
                intro hany
                exact hkeep (by rw [hany, Bool.or_true])
              rw [Bool.not_eq_true, List.any_eq_false] at hany
              refine Bool.not_eq_true _ ▸ hany x.2 (List.mem_filter.mpr ⟨?_, decide_eq_true hs⟩)
              exact List.mem_map_of_mem hx
            have hreading : (d'.desk s).reading = .ended := by
              by_contra hr
              obtain ⟨op, holds, hx⟩ := (hclosed.sides s).reader hr
              cases hnone _ hx rfl
            have hwriting : (d'.desk s).writing = .ended := by
              by_contra hr
              obtain ⟨sending, holds, hx⟩ := (hclosed.sides s).writer hr
              cases hnone _ hx rfl
            apply Duo.Leads.move (.release s) trivial
            apply Duo.Leads.here
            have hmove : d'.move (.release s) = d'.put s (d'.pair.drop s).1 (d'.desk s) := by
              unfold Duo.move
              dsimp only
              rw [hreading, hwriting, Duo.put_desk]
            rw [hmove, hclosed.link]
            have hreleased := hclosed.same
              (same_modifyParty w' s (f := fun p => { p with released := true }) fun _ => rfl)
            exact hreleased.setLink s (d'.pair.drop s).1 (d'.pair.drop s).2

/-- A task ends that is no loop, or a loop that the desk says has ended. -/
theorem Shows.endTask (h : (w.without t).Shows d) (s : Side) :
    d.Leads (w.endTask t s).Shows := by
  apply (h.release s).mono
  intro d' h'
  unfold Session.endTask
  dsimp only
  split
  · exact h'
  · exact h'.same (same_wake _ _)

/-! ## Tasks that are no loops -/

theorem ne_of_high (s : Side) (ht : 4 < t) :
    t ≠ Duo.readerTicket s ∧ t ≠ Duo.writerTicket s := by
  refine ⟨?_, ?_⟩
  all_goals
    rintro rfl
    revert ht
    cases s <;> decide

/-- A task that is no loop goes on with something else. -/
theorem Shows.goOn (h : w.Shows d) (hown : w.Owns s t) (ht : 4 < t) (work : Work)
    (hnew : (d.desk s).Does s t work) (hattends : w.Attends s work) :
    (w.setWork t work).Shows d := by
  obtain ⟨hread, hwrite⟩ := ne_of_high s ht
  have hset := h.setWork (k := d.desk s) hown rfl hnew hattends (fun _ => rfl) (fun _ => rfl)
    (absurd · hread) (absurd · hwrite)
  rw [Duo.put_eq_self rfl rfl] at hset
  exact hset

/-- A task ends that is no loop. -/
theorem Shows.endOther (h : w.Shows d) (hown : w.Owns s t) (ht : 4 < t) :
    d.Leads (w.endTask t s).Shows := by
  obtain ⟨hread, hwrite⟩ := ne_of_high s ht
  have hend := h.without (k := d.desk s) hown rfl (fun _ => rfl) (fun _ => rfl) (absurd · hread)
    (absurd · hwrite)
  rw [Duo.put_eq_self rfl rfl] at hend
  exact Shows.endTask hend s

end Session

end PeerRpc
