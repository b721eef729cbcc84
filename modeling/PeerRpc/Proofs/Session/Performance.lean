import PeerRpc.Proofs.Host.Registrations
import PeerRpc.Proofs.Session.Cancelled

/-!
# PeerRpc.Proofs.Session.Performance -- handlers are run as they were entrusted with their runs

What a handler does with a call is an activity, a tree that is fixed when the run begins, and
`Activity.Comes` says which places of it a run can come to. A task that runs a handler is always at
a place of the activity of its own run, and the outcome to which the handler comes is an end of it
(`perform_comes`, `resume_comes`). So it does not matter what is registered or removed meanwhile:
the registry is looked at when a run begins and never again (`Hired`), and the run is answered with
an end of what its own handler does, or as aborted if the handler allows that (`Reached.performs`).
-/

namespace PeerRpc

/-! ## Places of an activity -/

/-- The places to which an activity can come, depending on what it is answered. -/
inductive Activity.Comes (root : Activity) : Activity → Prop where
  | here : Comes root root
  | log {line next} (h : Comes root (.log line next)) : Comes root next
  | askStopped {next} (h : Comes root (.askStopped next)) (stopped : Bool) :
      Comes root (next stopped)
  | untilStopped {next} (h : Comes root (.untilStopped next)) : Comes root next
  | sleep {ms next} (h : Comes root (.sleep ms next)) : Comes root next
  | gate {name next} (h : Comes root (.gate name next)) : Comes root next
  | takeHandle {next} (h : Comes root (.takeHandle next)) (held : Bool) : Comes root (next held)
  | call {target method args next} (h : Comes root (.call target method args next))
      (r : CallResult) : Comes root (next r)

/-- What the handler of a run does with the call. -/
def Run.activity (r : Run Service) : Activity :=
  r.handler.run ⟨r.request, r.proxy, r.method⟩ r.args

/-- The outcome is an end of an activity. -/
def Outcome.Ends (root : Activity) : Outcome → Prop
  | value v => root.Comes (.finish (.ok v))
  | failed e => root.Comes (.finish (.error e))
  | panicked message => root.Comes (.panic message)
  | aborted => False

namespace Session

variable {w w' w'' : Session} {s : Side} {t : Ticket} {root : Activity}

/-- The place at which a handler waits is a place of an activity. -/
def Pause.At (root : Activity) : Pause → Prop
  | .fresh a => root.Comes a
  | .untilStopped next => root.Comes (.untilStopped next)
  | .forever => root.Comes .forever
  | .sleeping _ next => ∃ ms, root.Comes (.sleep ms next)
  | .gate name next => root.Comes (.gate name next)
  | .reply _ next => ∃ target method args, root.Comes (.call target method args next)

theorem Pause.at_still (pause : Pause) : pause.still.At root ↔ pause.At root := by
  cases pause <;> exact Iff.rfl

/-- A handler has come to a place or to an end of an activity. -/
def CameOf (root : Activity) : Came → Prop
  | .inl pause => pause.At root
  | .inr o => o.Ends root

/-- **A handler that goes on comes to a place of its activity**, or to an end of it. -/
theorem perform_comes (t : Ticket) (s : Side) (serial : Nat) {a : Activity} (h : root.Comes a)
    (w : Session) : CameOf root (perform t s serial a w).2 := by
  induction a generalizing w with
  | finish result => cases result <;> exact h
  | panic message => exact h
  | log line next ih => exact ih h.log _
  | askStopped next ih => exact ih _ (h.askStopped _) w
  | untilStopped next ih =>
      unfold perform
      split
      · exact ih h.untilStopped w
      · exact h
  | forever => exact h
  | sleep ms next ih =>
      unfold perform
      split
      · exact ih h.sleep w
      · exact ⟨ms, h⟩
  | gate name next ih =>
      unfold perform
      split
      · exact ih h.gate _
      · exact h
  | takeHandle next ih =>
      unfold perform
      split
      · exact ih true (h.takeHandle true) _
      · exact ih false (h.takeHandle false) w
  | call target method args next ih =>
      unfold perform
      dsimp only
      split
      · next r _ => exact ih r (h.call r) _
      · exact ⟨target, method, args, h⟩

theorem resume_comes (t : Ticket) (s : Side) (serial : Nat) {pause : Pause} (h : pause.At root)
    (w : Session) : CameOf root (w.resume t s serial pause).2 := by
  cases pause with
  | fresh a => exact perform_comes t s serial h w
  | untilStopped next => exact perform_comes t s serial h w
  | forever => exact h
  | sleeping wakeAt next =>
      obtain ⟨ms, hms⟩ := h
      unfold resume
      dsimp only
      split
      · exact perform_comes t s serial hms.sleep w
      · exact ⟨ms, hms⟩
  | gate name next => exact perform_comes t s serial h w
  | reply call next =>
      obtain ⟨target, method, args, hcall⟩ := h
      unfold resume
      dsimp only
      split
      · next r _ => exact perform_comes t s serial (hcall.call r) _
      · exact ⟨target, method, args, hcall⟩

/-! ## Who is on the crew after a turn -/

/-- The task has just been given a run, by a message that came while the handler was registered. -/
structure Hired (w : Session) (p : Post) : Prop where
  registered : ∃ e ∈ w.endpoint? p.side, e.registry.get? p.run.proxy = some p.run.handler
  pause : p.pause = .fresh p.run.activity

/-- What becomes of a member of the crew in its own turn, if its run goes on. -/
structure GoesOn (p p' : Post) : Prop where
  ticket : p'.ticket = p.ticket
  side : p'.side = p.side
  run : p'.run = p.run
  place : ∀ root, p.pause.At root → p'.pause.At root

/-- Whoever is on the crew after a turn of task `t` was on it before, has been hired, or is the task
itself, whose run goes on. -/
def Manned (t : Ticket) (w w' : Session) : Prop :=
  ∀ p' ∈ w'.crew, p' ∈ w.crew ∨ w.Hired p' ∨ p'.ticket = t ∧ ∃ p ∈ w.crew, GoesOn p p'

theorem Manned.of_crew (h : w'.crew ⊆ w.crew) : Manned t w w' := fun _ hp => Or.inl (h hp)

theorem Quiet.manned (h : w.Quiet w') : Manned t w w' := .of_crew (h.crew ▸ fun _ h => h)

theorem crew_endRun (w : Session) (t : Ticket) (s : Side) (serial : Nat) (o : Outcome) :
    (w.endRun t s serial o).crew = w.crew.filter fun p => p.ticket ≠ t := by
  have hback := (quiet_setHolds w t false).trans (quiet_release _ s)
  refine (quiet_endTask_without _ t s).crew.trans ?_
  rw [crew_without, crew_atEndpoint _ s fun e => e.startedIn_finish serial o]
  exact congrArg _ hback.crew

theorem crew_sendTurn (h : w.Idle t) (s : Side) (o : Outbound) (op : Link.Sending) :
    (w.sendTurn t s o op).crew = w.crew := by
  unfold sendTurn
  dsimp only
  have hlink := quiet_setLink w (w.link.send s t op).state (w.link.send s t op).wakes
  generalize w.setLink (w.link.send s t op).state (w.link.send s t op).wakes = w₁ at hlink ⊢
  have hnext := hlink.trans (quiet_setWork (hlink.idle h) (.write none) fun _ _ => rfl)
  split
  · exact (hlink.trans (quiet_setWork (hlink.idle h) _ fun _ _ => rfl)).crew
  · exact (hnext.trans (quiet_again t _)).crew
  · next err _ =>
      split
      · have hclose := hlink.trans (quiet_close w₁ s)
        exact (hclose.trans (quiet_endTask (hclose.idle h) s)).crew
      · refine (quiet_again t _).crew.trans ?_
        refine (crew_atEndpoint _ s fun e => (e.calm_undeliverable o err).started).trans ?_
        exact hnext.crew

theorem crew_writeTurn (h : w.Idle t) (s : Side) : (w.writeTurn t s).crew = w.crew := by
  unfold writeTurn
  split
  · exact (quiet_endTask h s).crew
  · split
    · next o e _ =>
        have hcrew := crew_setEndpoint w s e
        exact (crew_sendTurn (fun q hq => h q (hcrew ▸ hq)) s o _).trans hcrew
    · split
      · rfl
      · exact (quiet_endTask h s).crew

/-- A message begins no run, or one with the handler that is registered. -/
theorem starts_of_receive (e : Endpoint Service) (frame : Bytes) :
    startedIn (e.receive frame).2 = [] ∨ ∃ request proxy method args handler,
      e.registry.get? proxy = some handler ∧
        e.receive frame = e.start request proxy method args handler := by
  have h := e.handles_receive frame
  generalize e.receive frame = s at h ⊢
  cases h with
  | nothing => exact Or.inl rfl
  | misses id proxy => exact Or.inl (e.calm_enqueue _).started
  | starts request method args hg => exact Or.inr ⟨request, _, method, args, _, hg, rfl⟩
  | settles id r => exact Or.inl (e.calm_settle id r).started
  | fires serial => exact Or.inl (e.startedIn_fire serial)

/-- A message that is acted on adds a task to the crew at most. -/
theorem manned_receive (t : Ticket) (w : Session) (s : Side) (frame : Bytes) :
    Manned t w (w.atEndpoint s fun e => e.receive frame) := by
  unfold atEndpoint
  cases hp : w.party? s with
  | none => exact (Quiet.refl w).manned
  | some p =>
      dsimp only
      rcases starts_of_receive p.endpoint frame with
        hnone | ⟨request, proxy, method, args, handler, hget, hstart⟩
      · exact .of_crew (crew_take hnone w ▸ fun _ h => h)
      · rw [hstart]
        have hspawn := crew_spawn
          (w.setEndpoint s (p.endpoint.start request proxy method args handler).1) s
          (.handle (p.endpoint.newRun request proxy method args handler)
            (.fresh (handler.run ⟨request, proxy, method⟩ args))) false
        rw [crew_setEndpoint] at hspawn
        intro p' hp'
        replace hp' : p' ∈ w.crew ++ _ := hspawn ▸ hp'
        rcases List.mem_append.mp hp' with hp' | hp'
        · exact Or.inl hp'
        · obtain rfl := List.mem_singleton.mp hp'
          exact Or.inr (Or.inl ⟨⟨p.endpoint, endpoint?_of_party hp, hget⟩, rfl⟩)

/-- The endpoints as they are before a quiet step have the same services. -/
theorem Hired.of_eq {p : Post} (h : w'.Hired p)
    (heq : ∀ s, w'.endpoint? s = w.endpoint? s) : w.Hired p :=
  ⟨heq p.side ▸ h.registered, h.pause⟩

theorem manned_readTurn (h : w.Idle t) (s : Side) (op : Link.Receiving) :
    Manned t w (w.readTurn t s op) := by
  unfold readTurn
  split
  · dsimp only
    have hlink := quiet_setLink w (w.link.recv s t op).state (w.link.recv s t op).wakes
    split
    · exact (hlink.trans (quiet_setWork (hlink.idle h) _ fun _ _ => rfl)).manned
    · next frame _ =>
        have hwork := hlink.trans (quiet_setWork (hlink.idle h) (.read .fresh) fun _ _ => rfl)
        intro p' hp'
        rw [(quiet_again t _).crew] at hp'
        rcases manned_receive t _ s frame p' hp' with hold | hhired | ⟨ht, p, hp, hgoes⟩
        · exact Or.inl (hwork.crew ▸ hold)
        · exact Or.inr (Or.inl (hhired.of_eq fun s' => by cases s' <;> rfl))
        · exact Or.inr (Or.inr ⟨ht, p, hwork.crew ▸ hp, hgoes⟩)
    · have hclose := hlink.trans (quiet_close _ s)
      exact (hclose.trans (quiet_hangUpTurn (hclose.idle h) s .fresh)).manned
  · dsimp only
    have hlink := quiet_setLink w (w.link.abandonRecv s t op).1 (w.link.abandonRecv s t op).2
    exact (hlink.trans (quiet_hangUpTurn (hlink.idle h) s .fresh)).manned

/-! ## Turns of handlers -/

/-- What becomes of a run in a turn of its task. -/
inductive Turn (w : Session) (p : Post) (w' : Session) : Prop where
  /-- The handler goes on and waits again. -/
  | goesOn (w₁ : Session) (pause : Pause) (quiet : w.Quiet w₁)
      (place : ∀ root, p.pause.At root → pause.At root)
      (result : w' = w₁.setWork p.ticket (.handle p.run pause))
  /-- The run ends, because the handler has come to an end or because it is aborted. -/
  | ends (w₁ : Session) (o : Outcome) (quiet : w.Quiet w₁)
      (own : (∀ root, p.pause.At root → o.Ends root) ∨
        o = .aborted ∧ p.run.abortable = true ∧ w₁.isStopped p.side p.run.serial = true)
      (result : w' = w₁.endRun p.ticket p.side p.run.serial o)

theorem turn_handleTurn (w : Session) (t : Ticket) (s : Side) (run : Run Service) (pause : Pause) :
    Turn w ⟨t, s, run, pause.still⟩ (w.handleTurn t s run pause) := by
  have hresume := (covers_quiet s).resume t run.serial pause w
  have hcomes : ∀ root, pause.still.At root →
      CameOf root (w.resume t s run.serial pause).2 := fun root hat =>
    resume_comes t s run.serial (pause.at_still.mp hat) w
  unfold handleTurn
  split
  · next w₁ o heq =>
      rw [heq] at hresume hcomes
      exact .ends w₁ o hresume (Or.inl hcomes) rfl
  · next w₁ pause' heq =>
      rw [heq] at hresume hcomes
      split
      · next hstop =>
          obtain ⟨habort, hstop⟩ := Bool.and_eq_true_iff.mp hstop
          have habandon := (covers_quiet s).abandon t pause' w₁
          exact .ends _ .aborted (hresume.trans habandon)
            (Or.inr ⟨rfl, habort, habandon.isStopped hstop⟩) rfl
      · exact .goesOn w₁ pause' hresume hcomes rfl

theorem Turn.manned {p : Post} (h : Turn w p w') (hn : w.Numbered) (hp : p ∈ w.crew) :
    Manned p.ticket w w' := by
  cases h with
  | goesOn w₁ pause hquiet hat hresult =>
      intro p' hp'
      rw [hresult, crew_setWork (hquiet.numbered hn) (hquiet.crew.symm ▸ hp), hquiet.crew] at hp'
      obtain ⟨p₀, hp₀, rfl⟩ := List.mem_map.mp hp'
      by_cases ht : p₀.ticket = p.ticket
      · obtain rfl := hn.post_eq hp₀ hp ht
        refine Or.inr (Or.inr ⟨?_, p₀, hp, ?_, ?_, p₀.run_moved _ _, fun root hroot => ?_⟩)
        all_goals unfold Post.moved; rw [if_pos rfl]
        exact pause.at_still.mpr (hat root hroot)
      · rw [Post.moved_of_ne ht]
        exact Or.inl hp₀
  | ends w₁ o hquiet hown hresult =>
      refine .of_crew ?_
      rw [hresult, crew_endRun, hquiet.crew]
      exact List.filter_subset_self _

/-- **Whoever is on the crew after a turn** was on it before, has been hired for a message that came,
or goes on with its own run. -/
theorem manned_turn (h : w.Numbered) (t : Ticket) : Manned t w (w.turn t) := by
  unfold turn
  split
  · exact (Quiet.refl w).manned
  · next v task hfind =>
      obtain ⟨hmem, hv⟩ := (find?_key_iff h.tickets).mp hfind
      obtain rfl : v = t := hv
      obtain ⟨side, work, holds⟩ := task
      dsimp only
      have hidle := idle_of_find? h hfind
      cases work with
      | handle run pause =>
          exact (turn_handleTurn w v side run pause).manned h (mem_crew.mpr ⟨_, hmem, rfl⟩)
      | read op => exact manned_readTurn (hidle rfl) side op
      | hangUp op => exact (quiet_hangUpTurn (hidle rfl) side op).manned
      | write sending =>
          cases sending with
          | none => exact .of_crew (crew_writeTurn (hidle rfl) side ▸ fun _ h => h)
          | some x => exact .of_crew (crew_sendTurn (hidle rfl) side x.1 x.2 ▸ fun _ h => h)
      | close op => exact (quiet_closeTurn (hidle rfl) side op).manned
      | awaitClosed => exact (quiet_awaitClosedTurn (hidle rfl) side).manned
      | awaitEnd => exact (quiet_awaitEndTurn (hidle rfl) side).manned
      | awaitCall i dropped => exact (quiet_awaitCallTurn (hidle rfl) side i dropped).manned

/-! ## Whatever happens -/

/-- Every task is at a place of what the handler of its run does. -/
def InPlace (w : Session) : Prop := ∀ p ∈ w.crew, p.pause.At p.run.activity

theorem lasting_inPlace : Lasting InPlace where
  quiet h hq p hp := h p (hq.crew ▸ hp)
  queue _ h := h
  turn {w t} hstaffed h p' hp' := by
    rcases manned_turn hstaffed.numbered t p' hp' with hold | hhired | ⟨-, p, hp, hgoes⟩
    · exact h p' hold
    · rw [hhired.pause]
      exact .here
    · rw [hgoes.run]
      exact hgoes.place _ (h p hp)

theorem Reached.inPlace {link : Link} {configs : List Config} (h : Reached link configs w) :
    w.InPlace := by
  have hstart := unstaffed_ofLink link configs
  have hplace : (ofLink link configs).InPlace := fun p hp => by
    rw [hstart.crew] at hp
    cases hp
  exact (lasting_inPlace.later ⟨hstart.staffed, hplace⟩ h.later).2

/-- A run that may be aborted is run by a handler that says so. -/
theorem Staffed.cancellable {q : List Ticket} {p : Post} (h : w.Staffed q) (hp : p ∈ w.crew)
    (habort : p.run.abortable = true) (hstop : w.isStopped p.side p.run.serial = true) :
    Handler.isCancellable p.run.handler p.run.method = true := by
  rw [isStopped_eq, Option.any_eq_true] at hstop
  obtain ⟨e, he, -⟩ := hstop
  have hmans := h.sides p.side e he
  obtain ⟨r, hr, hrun⟩ := hmans.exists_run (mem_crewOf.mpr ⟨hp, rfl⟩)
  have hterms := hmans.terms r hr
  rw [← hrun] at habort ⊢
  exact (Bool.and_eq_true_iff.mp (hterms.symm.trans habort)).2

/-- How a run ends in a turn of its task: with an end of what its handler does, or aborted, if the
handler allows it. If the run answers a request, this is the answer, and no other is given. -/
def EndsWith (w : Session) (p : Post) (w' : Session) (o : Outcome) : Prop :=
  (o.Ends p.run.activity ∨
    o = .aborted ∧ Handler.isCancellable p.run.handler p.run.method = true) ∧
  w'.Idle p.ticket ∧
  ∀ id, p.run.request = some id → ∀ e ∈ w.endpoint? p.side, ∃ e' ∈ w'.endpoint? p.side,
    e.Answers e' (o.message id) ∧ e'.Ended p.run.serial

theorem Turn.outcome {p : Post} (h : Turn w p w') (hs : w.Staffed (p.ticket :: w.ready))
    (hp : p ∈ w.crew) (hat : p.pause.At p.run.activity) :
    (∃ p' ∈ w'.crew, GoesOn p p') ∨ ∃ o, EndsWith w p w' o := by
  cases h with
  | goesOn w₁ pause hquiet hgoes hresult =>
      refine Or.inl ⟨p.moved p.ticket pause, ?_, ?_⟩
      · rw [hresult, crew_setWork (hquiet.numbered hs.numbered) (hquiet.crew.symm ▸ hp),
          hquiet.crew]
        exact List.mem_map_of_mem hp
      · unfold Post.moved
        rw [if_pos rfl]
        exact ⟨rfl, rfl, rfl, fun root hroot => pause.at_still.mpr (hgoes root hroot)⟩
  | ends w₁ o hquiet hown hresult =>
      have hs₁ := hs.quiet hquiet
      have hp₁ : p ∈ w₁.crew := hquiet.crew.symm ▸ hp
      refine Or.inr ⟨o, ?_, fun p' hp' => ?_, fun id hid e he => ?_⟩
      · rcases hown with hown | ⟨haborted, habort, hstop⟩
        · exact Or.inl (hown _ hat)
        · exact Or.inr ⟨haborted, hs₁.cancellable hp₁ habort hstop⟩
      · rw [hresult, crew_endRun] at hp'
        exact of_decide_eq_true (List.mem_filter.mp hp').2
      · obtain ⟨e₁, he₁, hminds⟩ := hquiet.exists_minds he
        obtain ⟨e', he', hanswers, hend⟩ := hs₁.answers_endRun hp₁ hid he₁ o
        exact ⟨e', hresult ▸ he', hminds.answers hanswers, hend⟩

/-! ## The whole story -/

/-- What becomes of the runs of a session. -/
structure Performs (w : Session) : Prop where
  /-- Every run has a task that works on it. -/
  posts : ∀ s, ∀ e ∈ w.endpoint? s, ∀ r ∈ e.runs, ∃ p ∈ w.crew, p.side = s ∧ p.run = r.asBegun
  /-- A task that works on a run is at a place of what the handler of the run does with the call. -/
  inPlace : w.InPlace
  /-- Tasks join the crew for messages that come, with the handlers that are registered then. -/
  hired : ∀ t, ∀ p ∈ (w.turn t).crew, w.Idle p.ticket → w.Hired p
  /-- In its turn a task goes on with its run, or the run ends with what its handler comes to. -/
  turns : ∀ p ∈ w.crew,
    (∃ p' ∈ (w.turn p.ticket).crew, GoesOn p p') ∨ ∃ o, EndsWith w p (w.turn p.ticket) o
  /-- The turns of others leave a task where it is. -/
  others : ∀ t, ∀ p ∈ w.crew, p.ticket ≠ t → p ∈ (w.turn t).crew
  /-- So does everybody who has a service hosted, or hosted no longer. -/
  set : ∀ s i service w' old, w.set s i service = .ok (w', old) → w'.crew = w.crew
  unset : ∀ s i, (w.unset s i).1.crew = w.crew

/-- **Runs are performed by the handlers with which they began**, in every session and whatever is
registered meanwhile. -/
theorem Reached.performs {link : Link} {configs : List Config} (h : Reached link configs w) :
    w.Performs := by
  have hs := h.staffed
  refine { posts := ?posts, inPlace := h.inPlace, hired := ?hired, turns := ?turns,
           others := fun t => (hs.but t).turn.crew,
           set := fun _ _ _ _ _ hset => (quiet_set hset).crew,
           unset := fun s i => (quiet_unset w s i).crew }
  case posts =>
    intro s e he r hr
    obtain ⟨p, hp, hrun⟩ := (hs.sides s e he).exists_post hr
    obtain ⟨hp, hside⟩ := mem_crewOf.mp hp
    exact ⟨p, hp, hside, hrun⟩
  case hired =>
    intro t p hp hidle
    rcases manned_turn hs.numbered t p hp with hold | hhired | ⟨-, p₀, hp₀, hgoes⟩
    · exact absurd rfl (hidle p hold)
    · exact hhired
    · exact absurd hgoes.ticket.symm (hidle p₀ hp₀)
  case turns =>
    intro p hp
    obtain ⟨pause, holds, hx, hstill⟩ := exists_task hp
    have hturn := turn_handleTurn w p.ticket p.side p.run pause
    rw [hstill, ← hs.numbered.turn_of_handle hx] at hturn
    exact hturn.outcome (hs.but p.ticket) hp (h.inPlace p hp)

end Session

end PeerRpc
