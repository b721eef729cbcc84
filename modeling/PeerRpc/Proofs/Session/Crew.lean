import PeerRpc.Proofs.Course.Runs
import PeerRpc.Proofs.Session.Courses
import PeerRpc.Proofs.Session.Tasks

/-!
# PeerRpc.Proofs.Session.Crew -- the tasks that work on runs

The crew of a session is its tasks that run handlers, each with its run and with the place where its
handler is (`Session.crew`). Most of what is done in a session leaves the crew as it is and answers
no request, and whoever it tells to stop and may be aborted is about to take a turn afterwards
(`woken_take`): `Session.Quiet` says so of two sessions, and there is one lemma for each operation.
-/

namespace PeerRpc

theorem Call.withoutResult_hear {η : Type} (c : Call) (x : Event η) :
    { c.hear x with delivered := none } = { c with delivered := none } := by
  cases x with
  | settled id r =>
      unfold Call.hear
      dsimp only
      split <;> rfl
  | _ => rfl

namespace Session

variable {w w' w'' : Session} {s : Side} {t u : Ticket}

/-! ## The crew -/

/-- Where a handler is, whatever has become meanwhile of the call that it waits for. -/
def Pause.still : Pause → Pause
  | .reply call next => .reply { call with delivered := none } next
  | pause => pause

/-- A task that runs a handler. -/
structure Post where
  ticket : Ticket
  side : Side
  run : Run Service
  /-- Where the handler is. -/
  pause : Pause

/-- The run that a task works on. -/
def post? (x : Ticket × Task) : Option Post :=
  match x.2.work with
  | .handle run pause => some ⟨x.1, x.2.side, run, pause.still⟩
  | _ => none

/-- The tasks that run handlers. -/
def crew (w : Session) : List Post := w.tasks.filterMap post?

/-- No handler is run by the task with this ticket. -/
def Idle (w : Session) (t : Ticket) : Prop := ∀ p ∈ w.crew, p.ticket ≠ t

/-- Every task has a ticket of its own. -/
structure Numbered (w : Session) : Prop where
  tickets : (w.tasks.map Prod.fst).Nodup
  fresh : ∀ x ∈ w.tasks, x.1 < w.nextTicket

theorem isStopped_eq (w : Session) (s : Side) (serial : Nat) :
    w.isStopped s serial = (w.endpoint? s).any fun e => e.isStopped serial := by
  unfold isStopped endpoint?
  cases w.party? s <;> rfl

theorem post?_ticket {x : Ticket × Task} {p : Post} (h : post? x = some p) : p.ticket = x.1 := by
  unfold post? at h
  split at h
  · obtain rfl := Option.some.inj h
    rfl
  · cases h

theorem mem_crew {p : Post} : p ∈ w.crew ↔ ∃ x ∈ w.tasks, post? x = some p := List.mem_filterMap

/-- Who is on the crew has a task that runs a handler. -/
theorem exists_task {p : Post} (hp : p ∈ w.crew) :
    ∃ pause holds, (p.ticket, (⟨p.side, .handle p.run pause, holds⟩ : Task)) ∈ w.tasks ∧
      pause.still = p.pause := by
  obtain ⟨⟨t, side, work, holds⟩, hx, hpost⟩ := mem_crew.mp hp
  cases work with
  | handle run pause =>
      obtain rfl := Option.some.inj hpost
      exact ⟨pause, holds, hx, rfl⟩
  | _ => cases hpost

/-- A handler stays where it is when its task hears of an event. -/
theorem post?_hear (s : Side) (x : Event Service) (t : Ticket) (task : Task) :
    post? (t, task.hear s x) = post? (t, task) := by
  obtain ⟨side, work, holds⟩ := task
  unfold Task.hear
  dsimp only
  split
  · next run call next =>
      split
      · exact congrArg (fun c => some (Post.mk t side run (.reply c next)))
          (call.withoutResult_hear x)
      · rfl
  · rfl

theorem crew_map {f : Ticket × Task → Ticket × Task} (htasks : w'.tasks = w.tasks.map f)
    (hpost : ∀ x ∈ w.tasks, post? (f x) = post? x) : w'.crew = w.crew := by
  unfold crew
  rw [htasks, List.filterMap_map]
  exact List.filterMap_congr hpost

theorem crew_spawn (w : Session) (s : Side) (work : Work) (holds : Bool) :
    (w.spawn s work holds).crew = w.crew ++ (post? (w.nextTicket, ⟨s, work, holds⟩)).toList := by
  show (w.tasks ++ [(w.nextTicket, (⟨s, work, holds⟩ : Task))]).filterMap post? = _
  rw [List.filterMap_append]
  unfold crew
  cases h : post? (w.nextTicket, ⟨s, work, holds⟩) <;> simp [h]

theorem crew_hear (s : Side) (w : Session) {x : Event Service} (hx : x.started? = none) :
    (hear s w x).crew = w.crew := by
  cases x with
  | settled id r => exact crew_map rfl fun y _ => post?_hear s (.settled id r) y.1 y.2
  | started run => cases hx
  | _ => rfl

theorem crew_hears (s : Side) {events : List (Event Service)} (h : startedIn events = [])
    (w : Session) : (events.foldl (hear s) w).crew = w.crew := by
  induction events generalizing w with
  | nil => rfl
  | cons x rest ih =>
      have hx : x.started? = none := by
        cases hx : x.started? with
        | none => rfl
        | some r =>
            rw [startedIn, List.filterMap_cons_some hx] at h
            cases h
      rw [startedIn, List.filterMap_cons_none hx] at h
      exact (ih h _).trans (crew_hear s w hx)

theorem crew_setEndpoint (w : Session) (s : Side) (e : Endpoint Service) :
    (w.setEndpoint s e).crew = w.crew :=
  congrArg (List.filterMap post?) (w.tasks_modifyParty s _)

theorem crew_take {step : Endpoint.Step Service} (h : startedIn step.2 = []) (w : Session) :
    (w.take s step).crew = w.crew :=
  (crew_hears s h _).trans (w.crew_setEndpoint s step.1)

/-! ## Who is ready -/

theorem ready_wake (ts : List Ticket) (w : Session) : w.ready ⊆ (w.wake ts).ready := fun _ h =>
  (mem_enqueueTickets _ _).mpr (Or.inl h)

theorem ready_hear (s : Side) (w : Session) (x : Event Service) :
    w.ready ⊆ (hear s w x).ready := by
  cases x <;> exact fun _ h => (mem_enqueueTickets _ _).mpr (Or.inl h)

theorem ready_hears (s : Side) (events : List (Event Service)) (w : Session) :
    w.ready ⊆ (events.foldl (hear s) w).ready := by
  induction events generalizing w with
  | nil => exact fun _ h => h
  | cons x rest ih => exact fun _ h => ih _ (ready_hear s w x h)

theorem ready_take (s : Side) (step : Endpoint.Step Service) (w : Session) :
    w.ready ⊆ (w.take s step).ready := by
  have hset : (w.setEndpoint s step.1).ready = w.ready := by cases s <;> rfl
  exact fun _ h => ready_hears s step.2 _ (hset.symm ▸ h)

/-- A task whose run may be aborted is woken when the run is told to stop. -/
theorem woken {p : Post} (hp : p ∈ w.crew) (habort : p.run.abortable = true) :
    p.ticket ∈ (hear p.side w (.fired p.run.serial)).ready := by
  obtain ⟨pause, holds, hx, -⟩ := exists_task hp
  have hheeds : (Work.handle p.run pause).heedsStop p.run.serial = true := by
    simp [Work.heedsStop, habort]
  refine (mem_enqueueTickets _ _).mpr (Or.inr ?_)
  exact List.mem_map_of_mem (f := Prod.fst) (List.mem_filter.mpr ⟨hx, by simp [hheeds]⟩)

theorem woken_take {p : Post} (hp : p ∈ w.crew) (habort : p.run.abortable = true)
    {step : Endpoint.Step Service} (hstarted : startedIn step.2 = [])
    (hfired : Event.fired p.run.serial ∈ step.2) : p.ticket ∈ (w.take p.side step).ready := by
  obtain ⟨before, after, hevents⟩ := List.append_of_mem hfired
  have hbefore : startedIn before = [] := by
    rw [hevents, startedIn_append] at hstarted
    exact (List.append_eq_nil_iff.mp hstarted).1
  show p.ticket ∈ (step.2.foldl (hear p.side) (w.setEndpoint p.side step.1)).ready
  rw [hevents, List.foldl_append, List.foldl_cons]
  apply ready_hears
  apply woken ?_ habort
  rw [crew_hears p.side hbefore, crew_setEndpoint]
  exact hp

/-! ## Sessions with the same crew -/

/-- A later session with the same crew, whose runs have not been answered meanwhile. -/
structure Quiet (w w' : Session) : Prop where
  crew : w'.crew = w.crew
  numbered : w.Numbered → w'.Numbered
  ready : w.ready ⊆ w'.ready
  /-- Whoever has been told to stop meanwhile, and may be aborted, is ready. -/
  woken : ∀ p ∈ w.crew, p.run.abortable = true → w'.isStopped p.side p.run.serial = true →
    w.isStopped p.side p.run.serial = true ∨ p.ticket ∈ w'.ready
  endpoints : ∀ s, Option.Rel Endpoint.Minds (w.endpoint? s) (w'.endpoint? s)

theorem minds_of_eq {a b : Option (Endpoint Service)} (h : b = a) :
    Option.Rel Endpoint.Minds a b := by
  subst h
  cases b with
  | none => exact .none
  | some e => exact .some (.refl e)

theorem Quiet.trans (h : w.Quiet w') (h' : w'.Quiet w'') : w.Quiet w'' := by
  refine ⟨h'.crew.trans h.crew, fun hn => h'.numbered (h.numbered hn),
    fun _ ht => h'.ready (h.ready ht), fun p hp habort hstop => ?_, fun s => ?_⟩
  · rcases h'.woken p (h.crew.symm ▸ hp) habort hstop with hbefore | hready
    · exact (h.woken p hp habort hbefore).imp_right fun ht => h'.ready ht
    · exact Or.inr hready
  · have he := h.endpoints s
    have he' := h'.endpoints s
    generalize w.endpoint? s = a at he
    generalize w'.endpoint? s = b at he he'
    generalize w''.endpoint? s = c at he'
    cases he with
    | none =>
        cases he'
        exact .none
    | some hminds =>
        cases he' with
        | some hminds' => exact .some (hminds.trans hminds')

/-- The crew is the same, and so are the endpoints. -/
theorem quiet_of_crew (hcrew : w'.crew = w.crew) (hnumbered : w.Numbered → w'.Numbered)
    (hendpoint : ∀ s, w'.endpoint? s = w.endpoint? s) (hready : w.ready ⊆ w'.ready) :
    w.Quiet w' := by
  refine ⟨hcrew, hnumbered, hready, fun p _ _ hstop => Or.inl ?_,
    fun s => minds_of_eq (hendpoint s)⟩
  rw [isStopped_eq, hendpoint, ← isStopped_eq] at hstop
  exact hstop

/-- Tasks that stay where they are. -/
theorem quiet_map {f : Ticket × Task → Ticket × Task} (htasks : w'.tasks = w.tasks.map f)
    (hticket : ∀ x, (f x).1 = x.1) (hpost : ∀ x ∈ w.tasks, post? (f x) = post? x)
    (hnext : w'.nextTicket = w.nextTicket) (hendpoint : ∀ s, w'.endpoint? s = w.endpoint? s)
    (hready : w.ready ⊆ w'.ready) : w.Quiet w' := by
  refine quiet_of_crew (crew_map htasks hpost) (fun hn => ?_) hendpoint hready
  have htickets : w'.tasks.map Prod.fst = w.tasks.map Prod.fst := by
    rw [htasks, List.map_map]
    exact List.map_congr_left fun x _ => hticket x
  refine ⟨htickets ▸ hn.tickets, fun x hx => ?_⟩
  rw [htasks] at hx
  obtain ⟨y, hy, rfl⟩ := List.mem_map.mp hx
  rw [hticket, hnext]
  exact hn.fresh y hy

/-- What is neither a task nor an endpoint. -/
theorem quiet_of_eq (htasks : w'.tasks = w.tasks) (hnext : w'.nextTicket = w.nextTicket)
    (hendpoint : ∀ s, w'.endpoint? s = w.endpoint? s) (hready : w.ready ⊆ w'.ready) :
    w.Quiet w' :=
  quiet_map (f := id) (htasks.trans (List.map_id _).symm) (fun _ => rfl) (fun _ _ => rfl) hnext
    hendpoint hready

theorem Quiet.refl (w : Session) : w.Quiet w := quiet_of_eq rfl rfl (fun _ => rfl) fun _ h => h

theorem quiet_wake (ts : List Ticket) (w : Session) : w.Quiet (w.wake ts) :=
  quiet_of_eq rfl rfl (fun s => by cases s <;> rfl) (ready_wake ts w)

theorem quiet_setLink (w : Session) (link : Link) (wakes : List Ticket) :
    w.Quiet (w.setLink link wakes) :=
  quiet_of_eq rfl rfl (fun s => by cases s <;> rfl) (ready_wake wakes _)

theorem quiet_modifyParty (w : Session) (s : Side) {f : Party → Party}
    (hf : ∀ p, (f p).endpoint = p.endpoint) : w.Quiet (w.modifyParty s f) := by
  refine quiet_of_eq (w.tasks_modifyParty s f) (w.nextTicket_modifyParty s f) (fun s' => ?_) ?_
  · rw [endpoint?_modifyParty]
    split
    · next hs =>
        subst hs
        simp only [hf]
        rfl
    · rfl
  · cases s <;> exact fun _ h => h

theorem quiet_setHolds (w : Session) (t : Ticket) (holds : Bool) :
    w.Quiet (w.modifyTask t fun task => { task with holds := holds }) := by
  refine quiet_map rfl (fun x => ?_) (fun x _ => ?_) rfl (fun s => by cases s <;> rfl) fun _ h => h
  · dsimp only
    split <;> rfl
  · dsimp only
    split <;> rfl

/-- A task that runs no handler goes on with something that is no handler either. -/
theorem quiet_setWork (h : w.Idle t) (work : Work)
    (hwork : ∀ s holds, post? (t, ⟨s, work, holds⟩) = none) : w.Quiet (w.setWork t work) := by
  refine quiet_map rfl (fun x => ?_) (fun x hx => ?_) rfl (fun s => by cases s <;> rfl)
    fun _ h => h
  · dsimp only
    split <;> rfl
  · obtain ⟨v, task⟩ := x
    dsimp only
    split
    · next hv =>
        subst hv
        rw [hwork]
        cases hpost : post? (v, task) with
        | none => rfl
        | some p => exact absurd (post?_ticket hpost) (h p (mem_crew.mpr ⟨_, hx, hpost⟩))
    · rfl

theorem Numbered.spawn (h : w.Numbered) (s : Side) (work : Work) (holds : Bool) :
    (w.spawn s work holds).Numbered := by
  refine ⟨?_, fun x hx => ?_⟩
  · show ((w.tasks ++ [(w.nextTicket, (⟨s, work, holds⟩ : Task))]).map Prod.fst).Nodup
    rw [List.map_append, List.nodup_append]
    refine ⟨h.tickets, List.nodup_singleton _, fun v hv u hu huv => ?_⟩
    obtain ⟨x, hx, rfl⟩ := List.mem_map.mp hv
    obtain rfl := List.mem_singleton.mp hu
    exact absurd huv (Nat.ne_of_lt (h.fresh x hx))
  · show x.1 < w.nextTicket + 1
    rcases List.mem_append.mp hx with hx | hx
    · exact Nat.lt_succ_of_lt (h.fresh x hx)
    · rw [List.mem_singleton.mp hx]
      exact Nat.lt_succ_self _

theorem quiet_spawn (w : Session) (s : Side) {work : Work} (holds : Bool)
    (hwork : post? (w.nextTicket, ⟨s, work, holds⟩) = none) : w.Quiet (w.spawn s work holds) := by
  have hcrew : (w.spawn s work holds).crew = w.crew := by
    rw [crew_spawn, hwork]
    exact List.append_nil _
  exact quiet_of_crew hcrew (fun hn => hn.spawn s work holds) (fun s' => by cases s' <;> rfl)
    (ready_wake [w.nextTicket] w)

theorem Numbered.without (h : w.Numbered) (t : Ticket) : (w.without t).Numbered where
  tickets := (List.filter_sublist.map Prod.fst).nodup h.tickets
  fresh x hx := h.fresh x (List.mem_of_mem_filter hx)

theorem crew_without (w : Session) (t : Ticket) :
    (w.without t).crew = w.crew.filter fun p => p.ticket ≠ t := by
  show (w.tasks.filter fun x => x.1 ≠ t).filterMap post? = (w.tasks.filterMap post?).filter _
  induction w.tasks with
  | nil => rfl
  | cons x rest ih =>
      cases hpost : post? x with
      | none =>
          rw [List.filterMap_cons_none hpost, ← ih, List.filter_cons]
          split
          · exact List.filterMap_cons_none hpost
          · rfl
      | some p =>
          rw [List.filterMap_cons_some hpost, List.filter_cons, List.filter_cons, ← ih,
            post?_ticket hpost]
          split
          · exact List.filterMap_cons_some hpost
          · rfl

/-- A task ends that runs no handler. -/
theorem quiet_without (h : w.Idle t) : w.Quiet (w.without t) := by
  have hcrew : (w.without t).crew = w.crew := by
    rw [crew_without]
    exact List.filter_eq_self.mpr fun p hp => decide_eq_true (h p hp)
  exact quiet_of_crew hcrew (fun hn => hn.without t) (fun s => by cases s <;> rfl) fun _ h => h

/-! ## Steps of endpoints -/

theorem Numbered.hear (h : w.Numbered) (s : Side) (x : Event Service) :
    (Session.hear s w x).Numbered := by
  cases x with
  | settled id r =>
      have htickets : (Session.hear s w (.settled id r)).tasks.map Prod.fst =
          w.tasks.map Prod.fst := by
        show (w.tasks.map fun y => (y.1, y.2.hear s (.settled id r))).map Prod.fst = _
        rw [List.map_map]
        rfl
      refine ⟨htickets ▸ h.tickets, fun y hy => ?_⟩
      obtain ⟨x, hx, rfl⟩ := List.mem_map.mp hy
      exact h.fresh x hx
  | started run => exact h.spawn s _ false
  | _ => exact ⟨h.tickets, h.fresh⟩

theorem Numbered.take (h : w.Numbered) (s : Side) (step : Endpoint.Step Service) :
    (w.take s step).Numbered := by
  apply take_induction (P := Numbered) ?_ fun _ x h' => h'.hear s x
  refine ⟨?_, ?_⟩
  · rw [setEndpoint, tasks_modifyParty]
    exact h.tickets
  · rw [setEndpoint, tasks_modifyParty, nextTicket_modifyParty]
    exact h.fresh

theorem endpoint?_of_party {p : Party} (hp : w.party? s = some p) :
    w.endpoint? s = some p.endpoint := by
  unfold endpoint?
  rw [hp]
  rfl

theorem endpoint?_take_self {p : Party} (hp : w.party? s = some p) (step : Endpoint.Step Service) :
    (w.take s step).endpoint? s = some step.1 := by
  rw [endpoint?_take, setEndpoint, endpoint?_modifyParty, if_pos rfl, hp]
  rfl

theorem endpoint?_take_ne {s' : Side} (hs : s' ≠ s) (step : Endpoint.Step Service) (w : Session) :
    (w.take s step).endpoint? s' = w.endpoint? s' := by
  rw [endpoint?_take, setEndpoint, endpoint?_modifyParty, if_neg hs]

/-- Whoever is told to stop by a step, and may be aborted, is woken by it. -/
theorem woken_of_tells {p : Party} (hp : w.party? s = some p) {step : Endpoint.Step Service}
    (hstep : p.endpoint.Tells step) {post : Post} (hpost : post ∈ w.crew)
    (habort : post.run.abortable = true)
    (hstop : (w.take s step).isStopped post.side post.run.serial = true) :
    w.isStopped post.side post.run.serial = true ∨ post.ticket ∈ (w.take s step).ready := by
  rw [isStopped_eq] at hstop ⊢
  by_cases hs : post.side = s
  · subst hs
    rw [endpoint?_take_self hp] at hstop
    refine (hstep.told _ hstop).imp (fun hbefore => ?_) fun hfired => ?_
    · rw [endpoint?_of_party hp]
      exact hbefore
    · exact woken_take hpost habort hstep.started hfired
  · rw [endpoint?_take_ne hs] at hstop
    exact Or.inl hstop

theorem quiet_take {p : Party} (hp : w.party? s = some p) {step : Endpoint.Step Service}
    (hstep : p.endpoint.Tells step) (hminds : p.endpoint.Minds step.1) :
    w.Quiet (w.take s step) := by
  refine ⟨crew_take hstep.started w, fun hn => hn.take s step, ready_take s step w,
    fun _ => woken_of_tells hp hstep, fun s' => ?_⟩
  by_cases hs : s' = s
  · subst hs
    rw [endpoint?_take_self hp, endpoint?_of_party hp]
    exact .some hminds
  · exact minds_of_eq (endpoint?_take_ne hs step w)

/-- What is left of an endpoint that takes a step. -/
theorem exists_endpoint_atEndpoint {f : Endpoint Service → Endpoint.Step Service} {s' : Side}
    {e' : Endpoint Service} (he' : e' ∈ (w.atEndpoint s f).endpoint? s') :
    ∃ e ∈ w.endpoint? s', e' = if s' = s then (f e).1 else e := by
  unfold atEndpoint at he'
  cases hp : w.party? s with
  | none =>
      rw [hp] at he'
      refine ⟨e', he', (if_neg ?_).symm⟩
      rintro rfl
      have hnone : w.endpoint? s' = none := by
        unfold endpoint?
        rw [hp]
        rfl
      exact absurd (hnone.symm.trans he') nofun
  | some p =>
      rw [hp] at he'
      by_cases hs : s' = s
      · subst hs
        have hself := (endpoint?_take_self hp (f p.endpoint)).symm.trans he'
        refine ⟨p.endpoint, endpoint?_of_party hp, ?_⟩
        rw [if_pos rfl]
        exact (Option.some.inj hself).symm
      · have hother := (endpoint?_take_ne hs (f p.endpoint) w).symm.trans he'
        exact ⟨e', hother, (if_neg hs).symm⟩

theorem crew_atEndpoint (w : Session) (s : Side) {f : Endpoint Service → Endpoint.Step Service}
    (hf : ∀ e, startedIn (f e).2 = []) : (w.atEndpoint s f).crew = w.crew := by
  unfold atEndpoint
  split
  · rfl
  · exact crew_take (hf _) w

theorem Numbered.atEndpoint (h : w.Numbered) (s : Side)
    (f : Endpoint Service → Endpoint.Step Service) : (w.atEndpoint s f).Numbered := by
  unfold Session.atEndpoint
  split
  · exact h
  · exact h.take s _

theorem ready_atEndpoint (w : Session) (s : Side) (f : Endpoint Service → Endpoint.Step Service) :
    w.ready ⊆ (w.atEndpoint s f).ready := by
  unfold atEndpoint
  split
  · exact fun _ h => h
  · exact ready_take s _ w

theorem quiet_atEndpoint (w : Session) (s : Side) {f : Endpoint Service → Endpoint.Step Service}
    (hf : ∀ e, Endpoint.Tells e (f e))
    (hminds : ∀ e, Endpoint.Minds e (f e).1) : w.Quiet (w.atEndpoint s f) := by
  unfold atEndpoint
  cases hp : w.party? s with
  | none => exact .refl w
  | some p => exact quiet_take hp (hf p.endpoint) (hminds p.endpoint)

theorem quiet_close (w : Session) (s : Side) : w.Quiet (w.atEndpoint s Endpoint.close) :=
  quiet_atEndpoint w s Endpoint.tells_close Endpoint.minds_close

/-- An endpoint that is let go of answers nothing any more. -/
theorem quiet_release (w : Session) (s : Side) : w.Quiet (w.release s) := by
  unfold release
  split
  · exact .refl w
  · refine (quiet_close w s).trans ?_
    generalize w.atEndpoint s Endpoint.close = w₁
    dsimp only
    split
    · exact .refl w₁
    · split
      · exact .refl w₁
      · have hreleased : w₁.Quiet (w₁.modifyParty s fun p => { p with released := true }) :=
          quiet_modifyParty w₁ s fun _ => rfl
        exact hreleased.trans (quiet_setLink _ _ _)

/-- Once a task has gone, nothing but its end is left to be told. -/
theorem quiet_endTask_without (w : Session) (t : Ticket) (s : Side) :
    (w.without t).Quiet (w.endTask t s) := by
  have hrelease := quiet_release (w.without t) s
  unfold endTask
  dsimp only
  split
  · exact hrelease
  · exact hrelease.trans (quiet_wake _ _)

theorem quiet_endTask (h : w.Idle t) (s : Side) : w.Quiet (w.endTask t s) :=
  (quiet_without h).trans (quiet_endTask_without w t s)

/-! ## Calls -/

theorem quiet_request (w : Session) (s : Side) (proxy : ProxyId) (method : String)
    (args : List Value) : w.Quiet (w.request s proxy method args).1 := by
  unfold request
  cases hp : w.party? s with
  | none => exact .refl w
  | some p =>
      exact quiet_take hp (.of_calm (p.endpoint.calm_request ..)) (p.endpoint.minds_request ..)

theorem quiet_invoke (w : Session) (s : Side) (i : Identifier) (method : String)
    (args : List Value) : w.Quiet (w.invoke s i method args).1 := by
  unfold invoke
  split
  · exact .refl w
  · split
    · exact .refl w
    · exact quiet_request w s _ method args

theorem quiet_pollCall (w : Session) (s : Side) (call : Call) :
    w.Quiet (w.pollCall s call).1 := by
  unfold pollCall
  cases hp : w.party? s with
  | none => exact .refl w
  | some p => exact quiet_take hp (.of_calm (call.calm_poll ..)) (call.minds_poll ..)

theorem quiet_dropCall (w : Session) (s : Side) (call : Call) : w.Quiet (w.dropCall s call) :=
  quiet_atEndpoint w s (fun e => .of_calm (call.calm_drop e)) call.minds_drop

/-! ## Runs of handlers -/

theorem quiet_setPermits (name : String) (p : Permits) (w : Session) :
    w.Quiet (w.setPermits name p) :=
  quiet_of_eq rfl rfl (fun s => by cases s <;> rfl) fun _ h => h

/-- Whatever a handler does, no run is answered, and the tasks stay where they are. -/
theorem covers_quiet (s : Side) : Covers s Quiet where
  refl := .refl
  trans := .trans
  log _ _ := quiet_of_eq rfl rfl (fun s => by cases s <;> rfl) fun _ h => h
  permits w name p := quiet_setPermits name p w
  wakes w ts := quiet_wake ts w
  holds w t := quiet_setHolds w t true
  invoke w := quiet_invoke w s
  poll w := quiet_pollCall w s
  drop w := quiet_dropCall w s

end Session

end PeerRpc
