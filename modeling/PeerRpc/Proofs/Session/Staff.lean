import PeerRpc.Proofs.Session.Crew

/-!
# PeerRpc.Proofs.Session.Staff -- every run has a task, and a task to be aborted gets its turn

A session is staffed if the crew of each side works on just those runs that its endpoint knows, in
the same order (`Mans.runs`), and a task whose run may be aborted and has been told to stop is ready
(`Staffed.awake`). What is quiet keeps a session staffed (`Staffed.ready`), and so does a turn of a
task, which leaves all other members of the crew where they are (`Staffed.turn`).
-/

namespace PeerRpc

namespace Session

variable {w w' w'' : Session} {s : Side} {t : Ticket} {q q' : List Ticket}

/-! ## Crews and runs -/

/-- The tasks of a side that run handlers. -/
def crewOf (w : Session) (s : Side) : List Post := w.crew.filter fun p => p.side = s

/-- Tasks that work on the runs of an endpoint, one on each. -/
structure Mans (posts : List Post) (e : Endpoint Service) : Prop where
  runs : posts.map Post.run = e.runs.map Run.asBegun
  serials : (e.runs.map Run.serial).Nodup
  begun : ∀ r ∈ e.runs, r.serial < e.nextRun
  /-- A run may be aborted if it is to be answered and its method says so. -/
  terms : ∀ r ∈ e.runs,
    r.abortable = (r.request.isSome && Handler.isCancellable r.handler r.method)

/-- Each side has tasks for its runs. The tasks in the queue are awake. -/
structure Staffed (w : Session) (q : List Ticket) : Prop where
  numbered : w.Numbered
  sides : ∀ s, ∀ e ∈ w.endpoint? s, Mans (w.crewOf s) e
  awake : ∀ p ∈ w.crew, p.run.abortable = true → w.isStopped p.side p.run.serial = true →
    p.ticket ∈ q

theorem mem_crewOf {p : Post} : p ∈ w.crewOf s ↔ p ∈ w.crew ∧ p.side = s := by
  unfold crewOf
  rw [List.mem_filter, decide_eq_true_eq]

theorem crewOf_of_crew (h : w'.crew = w.crew) (s : Side) : w'.crewOf s = w.crewOf s := by
  unfold crewOf
  rw [h]

theorem Numbered.nodup_crew (h : w.Numbered) : (w.crew.map Post.ticket).Nodup := by
  refine List.Nodup.sublist ?_ h.tickets
  unfold crew
  generalize w.tasks = tasks
  induction tasks with
  | nil => exact List.Sublist.slnil
  | cons x rest ih =>
      cases hpost : post? x with
      | none =>
          rw [List.filterMap_cons_none hpost]
          exact ih.cons _
      | some p =>
          rw [List.filterMap_cons_some hpost, List.map_cons, post?_ticket hpost]
          exact ih.cons_cons _

/-- A task has one post. -/
theorem Numbered.post_eq (h : w.Numbered) {p p' : Post} (hp : p ∈ w.crew) (hp' : p' ∈ w.crew)
    (hticket : p.ticket = p'.ticket) : p = p' :=
  List.inj_on_of_nodup_map h.nodup_crew hp hp' hticket

theorem Numbered.task_eq (h : w.Numbered) {x y : Ticket × Task} (hx : x ∈ w.tasks)
    (hy : y ∈ w.tasks) (hxy : x.1 = y.1) : x = y :=
  List.inj_on_of_nodup_map h.tickets hx hy hxy

theorem Numbered.idle (h : w.Numbered) {x : Ticket × Task} (hx : x ∈ w.tasks)
    (hpost : post? x = none) : w.Idle x.1 := by
  intro p hp hticket
  obtain ⟨y, hy, hyp⟩ := mem_crew.mp hp
  rw [h.task_eq hy hx ((post?_ticket hyp).symm.trans hticket), hpost] at hyp
  cases hyp

theorem Mans.serials_crew {posts : List Post} {e : Endpoint Service} (h : Mans posts e) :
    (posts.map fun p => p.run.serial).Nodup := by
  have hserials : (posts.map fun p => p.run.serial) = e.runs.map Run.serial := by
    have hmap := congrArg (List.map Run.serial) h.runs
    rw [List.map_map, List.map_map] at hmap
    exact hmap
  exact hserials ▸ h.serials

/-- A run is worked on by one task. -/
theorem Mans.post_eq {posts : List Post} {e : Endpoint Service} (h : Mans posts e) {p p' : Post}
    (hp : p ∈ posts) (hp' : p' ∈ posts) (hserial : p.run.serial = p'.run.serial) : p = p' :=
  List.inj_on_of_nodup_map h.serials_crew hp hp' hserial

theorem Mans.exists_post {posts : List Post} {e : Endpoint Service} (h : Mans posts e)
    {r : Run Service} (hr : r ∈ e.runs) : ∃ p ∈ posts, p.run = r.asBegun := by
  have hmem := List.mem_map_of_mem (f := Run.asBegun) hr
  rw [← h.runs] at hmem
  exact List.mem_map.mp hmem

theorem Mans.exists_run {posts : List Post} {e : Endpoint Service} (h : Mans posts e)
    {p : Post} (hp : p ∈ posts) : ∃ r ∈ e.runs, r.asBegun = p.run := by
  have hmem := List.mem_map_of_mem (f := Post.run) hp
  rw [h.runs] at hmem
  exact List.mem_map.mp hmem

theorem Mans.of_same {posts : List Post} {e e' : Endpoint Service} (h : Mans posts e)
    (hsame : e.SameRuns e') : Mans posts e' := by
  refine ⟨h.runs.trans hsame.asBegun.symm, hsame.serials.symm ▸ h.serials, fun r hr => ?_,
    fun r hr => ?_⟩
  all_goals
    obtain ⟨f, hf⟩ := hsame.runs
    rw [hf] at hr
    obtain ⟨r₀, hr₀, rfl⟩ := List.mem_map.mp hr
  · rw [hsame.nextRun]
    exact h.begun r₀ hr₀
  · exact h.terms r₀ hr₀

/-- The same crew works on the same runs. -/
theorem Staffed.same (h : w.Staffed q) (hcrew : w'.crew = w.crew) (hnumbered : w'.Numbered)
    (hsides : ∀ s, ∀ e' ∈ w'.endpoint? s, ∃ e ∈ w.endpoint? s, e.SameRuns e')
    (hwoken : ∀ p ∈ w.crew, p.run.abortable = true →
      w'.isStopped p.side p.run.serial = true →
        w.isStopped p.side p.run.serial = true ∨ p.ticket ∈ q')
    (hq : q ⊆ q') : w'.Staffed q' := by
  refine ⟨hnumbered, fun s e' he' => ?_, fun p hp habort hstop => ?_⟩
  · obtain ⟨e, he, hsame⟩ := hsides s e' he'
    rw [crewOf_of_crew hcrew]
    exact (h.sides s e he).of_same hsame
  · rw [hcrew] at hp
    rcases hwoken p hp habort hstop with hbefore | hready
    · exact hq (h.awake p hp habort hbefore)
    · exact hready

theorem Quiet.exists_endpoint (h : w.Quiet w') {e' : Endpoint Service}
    (he' : e' ∈ w'.endpoint? s) : ∃ e ∈ w.endpoint? s, e.Minds e' := by
  have hrel := h.endpoints s
  rw [show w'.endpoint? s = some e' from he'] at hrel
  generalize w.endpoint? s = a at hrel ⊢
  cases hrel with
  | some hminds => exact ⟨_, rfl, hminds⟩

/-- What is quiet lets nobody wait who is to be aborted. -/
theorem Staffed.quiet (h : w.Staffed (t :: w.ready)) (hq : w.Quiet w') :
    w'.Staffed (t :: w'.ready) := by
  refine h.same hq.crew (hq.numbered h.numbered) (fun s e' he' => ?_) (fun p hp habort hstop => ?_)
    (List.cons_subset_cons t hq.ready)
  · obtain ⟨e, he, hminds⟩ := hq.exists_endpoint he'
    exact ⟨e, he, hminds.toSameRuns⟩
  · exact (hq.woken p hp habort hstop).imp_right (List.mem_cons_of_mem t)

theorem Staffed.but (h : w.Staffed w.ready) (t : Ticket) : w.Staffed (t :: w.ready) :=
  ⟨h.numbered, h.sides, fun p hp habort hstop =>
    List.mem_cons_of_mem t (h.awake p hp habort hstop)⟩

/-- A task that runs no handler may leave the queue. -/
theorem Staffed.dismiss (h : w.Staffed (t :: q)) (hidle : w.Idle t) : w.Staffed q :=
  ⟨h.numbered, h.sides, fun p hp habort hstop =>
    (List.mem_cons.mp (h.awake p hp habort hstop)).resolve_left (hidle p hp)⟩

theorem Staffed.ready (h : w.Staffed w.ready) (hq : w.Quiet w') : w'.Staffed w'.ready := by
  refine h.same hq.crew (hq.numbered h.numbered) (fun s e' he' => ?_) hq.woken hq.ready
  obtain ⟨e, he, hminds⟩ := hq.exists_endpoint he'
  exact ⟨e, he, hminds.toSameRuns⟩

/-! ## Runs begin -/

theorem isStopped_start (e : Endpoint Service) (request : Option RequestId) (proxy : ProxyId)
    (method : String) (args : List Value) (handler : Service) (serial : Nat) :
    (e.start request proxy method args handler).1.isStopped serial = e.isStopped serial := by
  show ((e.runs ++ [e.newRun request proxy method args handler]).find? _).any _ =
    (e.runs.find? _).any _
  rw [List.find?_append]
  cases e.runs.find? fun r => r.serial = serial with
  | some r => rfl
  | none =>
      rw [Option.none_or, List.find?_singleton]
      split <;> rfl

/-- One more run, and one more task for it. -/
theorem Mans.start {posts : List Post} {e : Endpoint Service} (h : Mans posts e) {post : Post}
    {request : Option RequestId} {proxy : ProxyId} {method : String} {args : List Value}
    {handler : Service} (hrun : post.run = e.newRun request proxy method args handler) :
    Mans (posts ++ [post]) (e.start request proxy method args handler).1 := by
  refine ⟨?_, ?_, fun r hr => ?_, fun r hr => ?_⟩
  · show _ = (e.runs ++ [_]).map Run.asBegun
    rw [List.map_append, List.map_append, h.runs]
    exact congrArg (fun r => _ ++ [r]) hrun
  · show ((e.runs ++ [_]).map Run.serial).Nodup
    rw [List.map_append, List.nodup_append]
    refine ⟨h.serials, List.nodup_singleton _, fun n hn m hm => ?_⟩
    obtain ⟨r, hr, rfl⟩ := List.mem_map.mp hn
    obtain rfl := List.mem_singleton.mp hm
    exact Nat.ne_of_lt (h.begun r hr)
  · show r.serial < e.nextRun + 1
    rcases List.mem_append.mp hr with hr | hr
    · exact Nat.lt_succ_of_lt (h.begun r hr)
    · rw [List.mem_singleton.mp hr]
      exact Nat.lt_succ_self _
  · rcases List.mem_append.mp hr with hr | hr
    · exact h.terms r hr
    · rw [List.mem_singleton.mp hr]

/-- A run that begins gets a task of its own. -/
theorem exists_post_start (w : Session) (s : Side) (e : Endpoint Service)
    (request : Option RequestId) (proxy : ProxyId) (method : String) (args : List Value)
    (handler : Service) : ∃ post : Post, post.side = s ∧
      post.run = e.newRun request proxy method args handler ∧
        (w.take s (e.start request proxy method args handler)).crew = w.crew ++ [post] := by
  have hspawn := crew_spawn (w.setEndpoint s (e.start request proxy method args handler).1) s
    (.handle (e.newRun request proxy method args handler)
      (.fresh (handler.run ⟨request, proxy, method⟩ args))) false
  rw [crew_setEndpoint] at hspawn
  exact ⟨_, rfl, rfl, hspawn⟩

theorem Staffed.start (h : w.Staffed q) {p : Party} (hp : w.party? s = some p)
    (request : Option RequestId) (proxy : ProxyId) (method : String) (args : List Value)
    (handler : Service) :
    (w.take s (p.endpoint.start request proxy method args handler)).Staffed q ∧
      w.crew ⊆ (w.take s (p.endpoint.start request proxy method args handler)).crew := by
  obtain ⟨post, hside, hrun, hcrew⟩ :=
    exists_post_start w s p.endpoint request proxy method args handler
  have he := endpoint?_of_party hp
  have hself := endpoint?_take_self hp (p.endpoint.start request proxy method args handler)
  have hother {s' : Side} (hs : s' ≠ s) :=
    endpoint?_take_ne hs (p.endpoint.start request proxy method args handler) w
  have hmans := h.sides s p.endpoint he
  refine ⟨⟨h.numbered.take s _, fun s' e' he' => ?_, fun x hx habort hstop => ?_⟩,
    hcrew ▸ List.subset_append_left _ _⟩
  · unfold crewOf
    rw [hcrew, List.filter_append]
    by_cases hs : s' = s
    · subst hs
      rw [hself, Option.mem_some_iff] at he'
      have hnew : [post].filter (fun p => p.side = s') = [post] := by simp [hside]
      rw [hnew, ← he']
      exact hmans.start hrun
    · rw [hother hs] at he'
      have hnew : [post].filter (fun p => p.side = s') = [] := by simp [hside, Ne.symm hs]
      rw [hnew, List.append_nil]
      exact h.sides s' e' he'
  · have hbefore : w.isStopped x.side x.run.serial = true := by
      rw [isStopped_eq] at hstop ⊢
      by_cases hs : x.side = s
      · rw [hs, hself] at hstop
        rw [hs, he]
        exact (isStopped_start ..).symm.trans hstop
      · rw [hother hs] at hstop
        exact hstop
    rw [hcrew] at hx
    rcases List.mem_append.mp hx with hx | hx
    · exact h.awake x hx habort hbefore
    · -- nobody has told the new run to stop
      obtain rfl := List.mem_singleton.mp hx
      rw [isStopped_eq, hside, he] at hbefore
      obtain ⟨r, hr, hserial, -⟩ := (Endpoint.isStopped_iff hmans.serials).mp hbefore
      rw [hrun] at hserial
      exact absurd hserial (Nat.ne_of_lt (hmans.begun r hr))

/-- A message is acted on. -/
theorem Staffed.acts (h : w.Staffed (t :: w.ready)) {p : Party} (hp : w.party? s = some p)
    {step : Endpoint.Step Service} (hacts : p.endpoint.Acts step) :
    (w.take s step).Staffed (t :: (w.take s step).ready) ∧ w.crew ⊆ (w.take s step).crew := by
  have hready := List.cons_subset_cons t (ready_take s step w)
  cases hacts with
  | tells hstep =>
      have hcrew := crew_take hstep.started w (s := s)
      refine ⟨h.same hcrew (h.numbered.take s step) (fun s' e' he' => ?_) ?_ hready,
        hcrew ▸ fun _ h => h⟩
      · by_cases hs : s' = s
        · subst hs
          rw [endpoint?_take_self hp, Option.mem_some_iff] at he'
          subst he'
          exact ⟨p.endpoint, endpoint?_of_party hp, hstep.toSameRuns⟩
        · rw [endpoint?_take_ne hs] at he'
          exact ⟨e', he', .of_work rfl⟩
      · intro x hx habort hstop
        exact (woken_of_tells hp hstep hx habort hstop).imp_right (List.mem_cons_of_mem t)
  | starts request proxy method args handler =>
      obtain ⟨hstaffed, hcrew⟩ := h.start hp request proxy method args handler
      refine ⟨⟨hstaffed.numbered, hstaffed.sides, fun x hx habort hstop => ?_⟩, hcrew⟩
      exact hready (hstaffed.awake x hx habort hstop)

/-! ## Runs end -/

/-- A session after task `t` has taken its turn. -/
structure Turned (t : Ticket) (w w' : Session) : Prop where
  staffed : w'.Staffed w'.ready
  /-- All others on the crew are where they were. -/
  crew : ∀ p ∈ w.crew, p.ticket ≠ t → p ∈ w'.crew

theorem Turned.quiet (h : w.Turned t w') (hq : w'.Quiet w'') : w.Turned t w'' where
  staffed := h.staffed.ready hq
  crew p hp hne := hq.crew.symm ▸ h.crew p hp hne

theorem Quiet.turned (hq : w.Quiet w') (h : w'.Turned t w'') : w.Turned t w'' where
  staffed := h.staffed
  crew p hp hne := h.crew p (hq.crew.symm ▸ hp) hne

theorem crewOf_without (w : Session) (t : Ticket) (s : Side) :
    (w.without t).crewOf s = (w.crewOf s).filter fun p => p.ticket ≠ t := by
  unfold crewOf
  rw [crew_without, List.filter_filter, List.filter_filter]
  exact List.filter_congr fun p _ => Bool.and_comm _ _

/-- The run that a task works on ends, and so does the task. -/
theorem Mans.finish {posts : List Post} {e : Endpoint Service} (h : Mans posts e) {post : Post}
    (hpost : post ∈ posts) (hticket : ∀ p ∈ posts, p.ticket = post.ticket → p = post)
    (o : Outcome) :
    Mans (posts.filter fun p => p.ticket ≠ post.ticket) (e.finish post.run.serial o).1 := by
  obtain ⟨hruns, hnext⟩ := Prod.mk.inj (e.work_finish post.run.serial o)
  have hmem {r : Run Service} (hr : r ∈ (e.finish post.run.serial o).1.runs) : r ∈ e.runs := by
    rw [hruns] at hr
    exact List.mem_of_mem_filter hr
  refine ⟨?_, ?_, fun r hr => hnext.symm ▸ h.begun r (hmem hr), fun r hr => h.terms r (hmem hr)⟩
  · -- the task and the run that leave are each other's
    have hleaves : ∀ p ∈ posts, decide (p.ticket ≠ post.ticket) =
        decide (p.run.serial ≠ post.run.serial) := by
      intro p hp
      refine decide_eq_decide.mpr (not_congr ⟨fun ht => ?_, fun hs => ?_⟩)
      · rw [hticket p hp ht]
      · rw [h.post_eq hp hpost hs]
    calc (posts.filter fun p => p.ticket ≠ post.ticket).map Post.run
        = (posts.map Post.run).filter fun r => r.serial ≠ post.run.serial := by
          rw [List.filter_congr hleaves, List.filter_map]
          rfl
      _ = (e.runs.map Run.asBegun).filter fun r => r.serial ≠ post.run.serial := by rw [h.runs]
      _ = (e.runs.filter fun r => r.serial ≠ post.run.serial).map Run.asBegun := by
          rw [List.filter_map]
          rfl
      _ = _ := by rw [hruns]
  · rw [hruns]
    exact (List.filter_sublist.map Run.serial).nodup h.serials

theorem Staffed.finish {post : Post} (h : w.Staffed (post.ticket :: w.ready))
    (hpost : post ∈ w.crew) (o : Outcome) : w.Turned post.ticket
      ((w.atEndpoint post.side fun e => e.finish post.run.serial o).without post.ticket) := by
  have hcrew : ((w.atEndpoint post.side fun e => e.finish post.run.serial o).without
      post.ticket).crew = w.crew.filter fun p => p.ticket ≠ post.ticket := by
    rw [crew_without, crew_atEndpoint w _ fun e => e.startedIn_finish _ o]
  have hends {s : Side} {e' : Endpoint Service} (he' : e' ∈ ((w.atEndpoint post.side
      fun e => e.finish post.run.serial o).without post.ticket).endpoint? s) :
      ∃ e ∈ w.endpoint? s, e' = if s = post.side then (e.finish post.run.serial o).1 else e :=
    exists_endpoint_atEndpoint (by cases s <;> exact he')
  refine ⟨⟨(h.numbered.atEndpoint _ _).without _, fun s e' he' => ?_,
    fun p hp habort hstop => ?_⟩, fun p hp hne => ?_⟩
  · obtain ⟨e, he, rfl⟩ := hends he'
    have hmans := h.sides s e he
    have hof : ((w.atEndpoint post.side fun e => e.finish post.run.serial o).without
        post.ticket).crewOf s = (w.crewOf s).filter fun p => p.ticket ≠ post.ticket := by
      rw [crewOf_without, crewOf_of_crew (crew_atEndpoint w _ fun e => e.startedIn_finish _ o)]
    rw [hof]
    by_cases hs : s = post.side
    · rw [if_pos hs]
      refine hmans.finish (mem_crewOf.mpr ⟨hpost, hs.symm⟩) (fun p hp ht => ?_) o
      exact h.numbered.post_eq (mem_crewOf.mp hp).1 hpost ht
    · rw [if_neg hs, List.filter_eq_self.mpr]
      · exact hmans
      · intro p hp
        obtain ⟨hp, hside⟩ := mem_crewOf.mp hp
        refine decide_eq_true fun ht => hs ?_
        rw [← hside, h.numbered.post_eq hp hpost ht]
  · rw [hcrew] at hp
    obtain ⟨hp, hne⟩ := List.mem_filter.mp hp
    have hbefore : w.isStopped p.side p.run.serial = true := by
      rw [isStopped_eq, Option.any_eq_true] at hstop ⊢
      obtain ⟨e', he', hstop'⟩ := hstop
      obtain ⟨e, he, rfl⟩ := hends he'
      refine ⟨e, he, ?_⟩
      split at hstop'
      · exact Endpoint.isStopped_finish (h.sides _ e he).serials hstop'
      · exact hstop'
    have hawake := List.mem_cons.mp (h.awake p hp habort hbefore)
    exact ready_atEndpoint w _ _ (hawake.resolve_left (of_decide_eq_true hne))
  · rw [hcrew]
    exact List.mem_filter.mpr ⟨hp, decide_eq_true hne⟩

/-- A task that gives back its handle, answers, and ends. -/
theorem Staffed.endRun {post : Post} (h : w.Staffed (post.ticket :: w.ready))
    (hpost : post ∈ w.crew) (o : Outcome) :
    w.Turned post.ticket (w.endRun post.ticket post.side post.run.serial o) := by
  have hback := (quiet_setHolds w post.ticket false).trans (quiet_release _ post.side)
  apply hback.turned
  have hfinish := (h.quiet hback).finish (hback.crew.symm ▸ hpost) o
  exact hfinish.quiet (quiet_endTask_without _ post.ticket post.side)

/-! ## Turns of handlers -/

/-- A member of the crew after task `t` has come to wait elsewhere. -/
def Post.moved (t : Ticket) (pause : Pause) (p : Post) : Post :=
  if p.ticket = t then { p with pause := pause.still } else p

@[simp] theorem Post.run_moved (t : Ticket) (pause : Pause) (p : Post) :
    (p.moved t pause).run = p.run := by
  unfold Post.moved
  split <;> rfl

@[simp] theorem Post.side_moved (t : Ticket) (pause : Pause) (p : Post) :
    (p.moved t pause).side = p.side := by
  unfold Post.moved
  split <;> rfl

theorem Post.moved_of_ne {p : Post} (h : p.ticket ≠ t) (pause : Pause) : p.moved t pause = p :=
  if_neg h

/-- A handler that has moved on. -/
theorem crew_setWork {post : Post} (h : w.Numbered) (hpost : post ∈ w.crew) (pause : Pause) :
    (w.setWork post.ticket (.handle post.run pause)).crew =
      w.crew.map (Post.moved post.ticket pause) := by
  show (w.tasks.map _).filterMap post? = (w.tasks.filterMap post?).map _
  rw [List.filterMap_map, List.map_filterMap]
  refine List.filterMap_congr fun x hx => ?_
  obtain ⟨v, task⟩ := x
  rw [Function.comp_apply]
  dsimp only
  by_cases hv : v = post.ticket
  · -- this is the task of the handler, and of no other
    obtain ⟨pause₀, holds, hy, -⟩ := exists_task hpost
    obtain ⟨rfl, rfl⟩ := Prod.mk.inj (h.task_eq hx hy hv)
    rw [if_pos rfl]
    exact congrArg some (if_pos rfl).symm
  · rw [if_neg hv]
    cases hp : post? (v, task) with
    | none => rfl
    | some p =>
        have hne : p.ticket ≠ post.ticket := by
          rw [post?_ticket hp]
          exact hv
        rw [Option.map_some, Post.moved_of_ne hne]

/-- A handler goes on and waits again. -/
theorem Staffed.goOn {post : Post} (h : w.Staffed (post.ticket :: w.ready)) (hpost : post ∈ w.crew)
    {pause : Pause}
    (hgoes : ¬(post.run.abortable && w.isStopped post.side post.run.serial) = true) :
    w.Turned post.ticket (w.setWork post.ticket (.handle post.run pause)) := by
  have hcrew := crew_setWork h.numbered hpost pause
  refine ⟨⟨⟨?_, fun x hx => ?_⟩, fun s e he => ?_, fun p hp habort hstop => ?_⟩, fun p hp hne => ?_⟩
  · rw [tickets_setWork]
    exact h.numbered.tickets
  · rcases (w.mem_setWork _ _ x).mp hx with ⟨hold, -⟩ | ⟨task, hold, rfl⟩
    · exact h.numbered.fresh x hold
    · exact h.numbered.fresh (post.ticket, task) hold
  · have hmans := h.sides s e (by cases s <;> exact he)
    refine ⟨?_, hmans.serials, hmans.begun, hmans.terms⟩
    rw [← hmans.runs]
    unfold crewOf
    rw [hcrew, List.filter_map, List.map_map]
    have hfilter : (fun p : Post => decide (p.side = s)) ∘ Post.moved post.ticket pause =
        fun p => decide (p.side = s) := by
      funext p
      rw [Function.comp_apply, Post.side_moved]
    rw [hfilter]
    exact List.map_congr_left fun p _ => p.run_moved _ _
  · have hstop' : w.isStopped p.side p.run.serial = true := by
      generalize p.side = s at hstop ⊢
      cases s <;> exact hstop
    rw [hcrew] at hp
    obtain ⟨p₀, hp₀, rfl⟩ := List.mem_map.mp hp
    rw [Post.run_moved] at habort
    rw [Post.run_moved, Post.side_moved] at hstop'
    have hne : p₀.ticket ≠ post.ticket := by
      intro ht
      obtain rfl := h.numbered.post_eq hp₀ hpost ht
      exact hgoes (by rw [habort, hstop']; rfl)
    rw [Post.moved_of_ne hne]
    exact (List.mem_cons.mp (h.awake p₀ hp₀ habort hstop')).resolve_left hne
  · rw [hcrew]
    exact List.mem_map.mpr ⟨p, hp, Post.moved_of_ne hne pause⟩

/-- **A handler takes its turn.** If it is to be aborted, its task does not outlive the turn. -/
theorem Staffed.handleTurn {run : Run Service} {pause : Pause} {holds : Bool}
    (h : w.Staffed (t :: w.ready)) (hx : (t, ⟨s, .handle run pause, holds⟩) ∈ w.tasks) :
    w.Turned t (w.handleTurn t s run pause) := by
  have hpost : (⟨t, s, run, pause.still⟩ : Post) ∈ w.crew := mem_crew.mpr ⟨_, hx, rfl⟩
  have hresume := (covers_quiet s).resume t run.serial pause w
  unfold Session.handleTurn
  split
  · next w₁ outcome heq =>
      rw [heq] at hresume
      exact hresume.turned ((h.quiet hresume).endRun (hresume.crew.symm ▸ hpost) outcome)
  · next w₁ pause' heq =>
      rw [heq] at hresume
      have hstaffed := h.quiet hresume
      have hpost₁ := hresume.crew.symm ▸ hpost
      apply hresume.turned
      split
      · have habandon := (covers_quiet s).abandon t pause' w₁
        apply habandon.turned
        exact (hstaffed.quiet habandon).endRun (habandon.crew.symm ▸ hpost₁) .aborted
      · next hgoes => exact hstaffed.goOn hpost₁ hgoes

/-! ## Turns of all others -/

theorem Quiet.idle (hq : w.Quiet w') (h : w.Idle t) : w'.Idle t := fun p hp => h p (hq.crew ▸ hp)

/-- A task that runs no handler does something quiet. -/
theorem Staffed.idle (h : w.Staffed (t :: w.ready)) (hidle : w.Idle t) (hq : w.Quiet w') :
    w.Turned t w' where
  staffed := (h.quiet hq).dismiss (hq.idle hidle)
  crew _ hp _ := hq.crew.symm ▸ hp

theorem quiet_again (t : Ticket) (w : Session) : w.Quiet (w.again t) := by
  refine quiet_of_eq rfl rfl (fun s => by cases s <;> rfl) fun v hv => ?_
  by_cases hvt : v = t
  · exact hvt ▸ List.mem_cons_self
  · exact List.mem_cons_of_mem t (List.mem_filter.mpr ⟨hv, decide_eq_true hvt⟩)

theorem quiet_closeChannel (t : Ticket) (s : Side) (op : Link.Closing) (w : Session) :
    w.Quiet (w.closeChannel t s op).1 := by
  unfold closeChannel
  dsimp only
  refine Quiet.trans ?_ (quiet_setLink _ _ _)
  split
  · exact quiet_of_eq rfl rfl (fun s => by cases s <;> rfl) fun _ h => h
  · exact .refl w

theorem quiet_hangUpTurn (h : w.Idle t) (s : Side) (op : Link.Closing) :
    w.Quiet (w.hangUpTurn t s op) := by
  have hclose := quiet_closeChannel t s op w
  unfold hangUpTurn
  split
  · next w₁ op' heq =>
      rw [heq] at hclose
      exact hclose.trans (quiet_setWork (hclose.idle h) _ fun _ _ => rfl)
  · next w₁ heq =>
      rw [heq] at hclose
      exact hclose.trans (quiet_endTask (hclose.idle h) s)

theorem quiet_endLabelled (h : w.Idle t) (s : Side) (label : String) (x : Ending) :
    w.Quiet (w.endLabelled t s label x) := by
  have hnote : w.Quiet (w.noteEnding label x) :=
    quiet_of_eq rfl rfl (fun s => by cases s <;> rfl) fun _ h => h
  exact hnote.trans (quiet_endTask (hnote.idle h) s)

theorem quiet_closeTurn (h : w.Idle t) (s : Side) (op : Link.Closing) :
    w.Quiet (w.closeTurn t s op) := by
  have hclose := (quiet_close w s).trans (quiet_closeChannel t s op _)
  unfold closeTurn
  split
  · next w₁ op' heq =>
      rw [heq] at hclose
      exact hclose.trans (quiet_setWork (hclose.idle h) _ fun _ _ => rfl)
  · next w₁ heq =>
      rw [heq] at hclose
      exact hclose.trans (quiet_endLabelled (hclose.idle h) s _ _)

theorem quiet_awaitClosedTurn (h : w.Idle t) (s : Side) : w.Quiet (w.awaitClosedTurn t s) := by
  unfold awaitClosedTurn
  split
  · exact .refl w
  · exact quiet_endLabelled h s _ _

theorem quiet_awaitEndTurn (h : w.Idle t) (s : Side) : w.Quiet (w.awaitEndTurn t s) := by
  unfold awaitEndTurn
  split
  · exact .refl w
  · exact quiet_endLabelled h s _ _

theorem quiet_setCall (i : Nat) (call : Call) (held : Bool) (w : Session) :
    w.Quiet (w.setCall i call held) :=
  quiet_of_eq rfl rfl (fun s => by cases s <;> rfl) fun _ h => h

theorem quiet_awaitCallTurn (h : w.Idle t) (s : Side) (i : Nat) (dropped : Bool) :
    w.Quiet (w.awaitCallTurn t s i dropped) := by
  unfold awaitCallTurn
  split
  · exact quiet_endTask h s
  · next c _ =>
      split
      · have hdrop := quiet_dropCall w s c.call
        exact hdrop.trans (quiet_endTask (hdrop.idle h) s)
      · have hpoll := quiet_pollCall w s c.call
        split
        · next w₁ call r heq =>
            rw [heq] at hpoll
            have hset := hpoll.trans (quiet_setCall i call false w₁)
            exact hset.trans (quiet_endLabelled (hset.idle h) s _ _)
        · next w₁ call heq =>
            rw [heq] at hpoll
            exact hpoll.trans (quiet_setCall i call false w₁)

/-- **A reader takes its turn.** It alone begins runs. -/
theorem Staffed.readTurn (h : w.Staffed (t :: w.ready)) (hidle : w.Idle t) (s : Side)
    (op : Link.Receiving) : w.Turned t (w.readTurn t s op) := by
  unfold Session.readTurn
  split
  · dsimp only
    have hlink := quiet_setLink w (w.link.recv s t op).state (w.link.recv s t op).wakes
    generalize w.setLink (w.link.recv s t op).state (w.link.recv s t op).wakes = w₁ at hlink ⊢
    split
    · exact h.idle hidle (hlink.trans (quiet_setWork (hlink.idle hidle) _ fun _ _ => rfl))
    · next frame _ =>
        have hwork := hlink.trans (quiet_setWork (hlink.idle hidle) (.read .fresh)
          fun _ _ => rfl)
        apply hwork.turned
        have hstaffed := h.quiet hwork
        generalize w₁.setWork t (.read .fresh) = w₂ at hstaffed ⊢
        obtain ⟨hstaffed₃, hcrew⟩ : (w₂.atEndpoint s fun e => e.receive frame).Staffed
            (t :: (w₂.atEndpoint s fun e => e.receive frame).ready) ∧
              w₂.crew ⊆ (w₂.atEndpoint s fun e => e.receive frame).crew := by
          unfold atEndpoint
          cases hp : w₂.party? s with
          | none => exact ⟨hstaffed, fun _ h => h⟩
          | some p => exact hstaffed.acts hp (p.endpoint.acts_receive frame)
        generalize (w₂.atEndpoint s fun e => e.receive frame) = w₃ at hstaffed₃ hcrew ⊢
        have hagain := quiet_again t w₃
        refine ⟨?_, fun p hp _ => hagain.crew.symm ▸ hcrew hp⟩
        -- the reader takes another turn at once
        obtain ⟨hnumbered, hsides, hawake⟩ := hstaffed₃.quiet hagain
        refine ⟨hnumbered, hsides, fun p hp habort hstop => ?_⟩
        rcases List.mem_cons.mp (hawake p hp habort hstop) with ht | hready
        · exact ht ▸ List.mem_cons_self
        · exact hready
    · have hclose := hlink.trans (quiet_close w₁ s)
      exact h.idle hidle (hclose.trans (quiet_hangUpTurn (hclose.idle hidle) s .fresh))
  · dsimp only
    have hlink := quiet_setLink w (w.link.abandonRecv s t op).1 (w.link.abandonRecv s t op).2
    exact h.idle hidle (hlink.trans (quiet_hangUpTurn (hlink.idle hidle) s .fresh))

/-- A step at an endpoint with which no run begins or ends. -/
theorem Staffed.calm (h : w.Staffed (t :: w.ready)) {p : Party} (hp : w.party? s = some p)
    {step : Endpoint.Step Service} (hcalm : Endpoint.Calm p.endpoint step) :
    (w.take s step).Staffed (t :: (w.take s step).ready) ∧ (w.take s step).crew = w.crew :=
  ⟨(h.acts hp (.tells (.of_calm hcalm))).1, crew_take hcalm.started w⟩

/-- **A writer takes its turn** while it sends. -/
theorem Staffed.sendTurn (h : w.Staffed (t :: w.ready)) (hidle : w.Idle t) (s : Side)
    (o : Outbound) (op : Link.Sending) : w.Turned t (w.sendTurn t s o op) := by
  unfold Session.sendTurn
  dsimp only
  have hlink := quiet_setLink w (w.link.send s t op).state (w.link.send s t op).wakes
  generalize w.setLink (w.link.send s t op).state (w.link.send s t op).wakes = w₁ at hlink ⊢
  have hnext := hlink.trans (quiet_setWork (hlink.idle hidle) (.write none) fun _ _ => rfl)
  split
  · exact h.idle hidle (hlink.trans (quiet_setWork (hlink.idle hidle) _ fun _ _ => rfl))
  · exact h.idle hidle (hnext.trans (quiet_again t _))
  · next err _ =>
      split
      · have hclose := hlink.trans (quiet_close w₁ s)
        exact h.idle hidle (hclose.trans (quiet_endTask (hclose.idle hidle) s))
      · apply hnext.turned
        have hstaffed := h.quiet hnext
        have hidle₂ := hnext.idle hidle
        generalize w₁.setWork t (.write none) = w₂ at hstaffed hidle₂ ⊢
        unfold atEndpoint
        cases hp : w₂.party? s with
        | none => exact hstaffed.idle hidle₂ (quiet_again t w₂)
        | some p =>
            obtain ⟨hstaffed₃, hcrew⟩ := hstaffed.calm hp (p.endpoint.calm_undeliverable o err)
            have hidle₃ : (w₂.take s (p.endpoint.undeliverable o err)).Idle t :=
              fun q hq => hidle₂ q (hcrew ▸ hq)
            have hagain := hstaffed₃.idle hidle₃ (quiet_again t _)
            exact ⟨hagain.staffed, fun q hq hne => hagain.crew q (hcrew.symm ▸ hq) hne⟩

/-- **A writer takes its turn** and looks for a message. -/
theorem Staffed.writeTurn (h : w.Staffed (t :: w.ready)) (hidle : w.Idle t) (s : Side) :
    w.Turned t (w.writeTurn t s) := by
  unfold Session.writeTurn
  cases hp : w.party? s with
  | none => exact h.idle hidle (quiet_endTask hidle s)
  | some p =>
      dsimp only
      cases hd : p.endpoint.dequeue with
      | none =>
          dsimp only
          split
          · exact h.idle hidle (.refl w)
          · exact h.idle hidle (quiet_endTask hidle s)
      | some x =>
          obtain ⟨o, e⟩ := x
          obtain ⟨-, rest, -, rfl⟩ := Endpoint.dequeue_eq_some.mp hd
          have hcalm : Endpoint.Calm p.endpoint ({ p.endpoint with outbound := rest }, []) :=
            ⟨rfl, rfl⟩
          obtain ⟨hstaffed, hcrew⟩ := h.calm hp hcalm
          have hsend := hstaffed.sendTurn (fun q hq => hidle q (hcrew ▸ hq)) s o (.fresh o.bytes)
          exact ⟨hsend.staffed, fun q hq hne => hsend.crew q (hcrew.symm ▸ hq) hne⟩

theorem idle_of_find? (h : w.Numbered) {x : Ticket × Task}
    (hx : (w.tasks.find? fun x => x.1 = t) = some x) (hpost : post? x = none) : w.Idle t := by
  obtain ⟨hmem, rfl⟩ := (find?_key_iff h.tickets).mp hx
  exact h.idle hmem hpost

/-- **A task takes its turn.** Whoever else runs a handler stays where it is, and whoever is to be
aborted is awake. -/
theorem Staffed.turn (h : w.Staffed (t :: w.ready)) : w.Turned t (w.turn t) := by
  unfold Session.turn
  split
  · next hnone =>
      refine h.idle (fun p hp ht => ?_) (.refl w)
      obtain ⟨y, hy, hyp⟩ := mem_crew.mp hp
      exact List.find?_eq_none.mp hnone y hy (decide_eq_true ((post?_ticket hyp).symm.trans ht))
  · next v task hfind =>
      have hmem := List.mem_of_find?_eq_some hfind
      have hv := List.find?_some hfind
      obtain rfl : v = t := of_decide_eq_true hv
      obtain ⟨side, work, holds⟩ := task
      dsimp only
      have hidle := idle_of_find? h.numbered hfind
      cases work with
      | handle run pause => exact h.handleTurn hmem
      | read op => exact h.readTurn (hidle rfl) side op
      | hangUp op => exact h.idle (hidle rfl) (quiet_hangUpTurn (hidle rfl) side op)
      | write sending =>
          cases sending with
          | none => exact h.writeTurn (hidle rfl) side
          | some x => exact h.sendTurn (hidle rfl) side x.1 x.2
      | close op => exact h.idle (hidle rfl) (quiet_closeTurn (hidle rfl) side op)
      | awaitClosed => exact h.idle (hidle rfl) (quiet_awaitClosedTurn (hidle rfl) side)
      | awaitEnd => exact h.idle (hidle rfl) (quiet_awaitEndTurn (hidle rfl) side)
      | awaitCall i dropped =>
          exact h.idle (hidle rfl) (quiet_awaitCallTurn (hidle rfl) side i dropped)

end Session

end PeerRpc
