import PeerRpc.Proofs.Course.Runs
import PeerRpc.Proofs.Host.Registrations

/-!
# PeerRpc.Proofs.Host.Services -- which handler serves a message

A message is served by the handler that is registered under its service id at the moment at which
the message arrives, and that moment decides for good. The handler is put into the run that begins
(`Host.step_request`, `Host.step_notification`), says then whether the run may be aborted, and stays
in the run for as long as the run lasts, whatever is registered or removed meanwhile
(`Chronicle.assigned_run`). What answers the request is the outcome of that run
(`Chronicle.answered_run`).

A caller is told that a service is not there exactly if its request arrives while nothing is
registered under the id (`Host.misses_of_noSuchProxy`). A request whose id is still being worked on
is dropped, whoever is registered.
-/

namespace PeerRpc

variable {η : Type}

/-- A handler does not say that a service is not there. -/
theorem Outcome.code_message {id id' : RequestId} {out : Outcome} {err : RemoteError}
    (h : out.message id = .replyErr id' err) : err.code ≠ .noSuchProxy := by
  intro hcode
  cases out with
  | value v =>
      simp only [message] at h
      split at h
      · cases h
      · cases h
        cases hcode
  | failed e =>
      simp only [message] at h
      split at h
      · cases h
        cases e <;> cases hcode
      · cases h
        cases hcode
  | panicked text =>
      cases h
      cases hcode
  | aborted =>
      cases h
      cases hcode

namespace Host

variable [Handler η]

/-! ## The arrival of a message -/

theorem step_of_receives {h : Host η} {frame : Bytes} {m : Message}
    (hm : h.receives? (.receive frame) = some m) :
    h.step (.receive frame) = h.follow (h.endpoint.dispatch m) := by
  obtain ⟨hopen, frame', heq, hdecode⟩ := receives?_eq_some hm
  cases heq
  simp only [step, Endpoint.receive, hopen, if_true, hdecode]

section

variable {h : Host η} {frame : Bytes} {id : RequestId} {proxy : ProxyId} {method : String}
  {args : List Value}

/-- **A request is served by whoever is registered when it arrives**, or else is answered at once. -/
theorem step_request (hm : h.receives? (.receive frame) = some (.request id proxy method args))
    (hfree : h.endpoint.runFor? id = none) :
    (h.step (.receive frame)).2 =
      match h.endpoint.registry.get? proxy with
      | some g => [.started (h.endpoint.newRun (some id) proxy method args g)]
      | none => [.queued { message := .replyErr id (.noSuchProxy proxy) }] := by
  have hopen := (receives?_eq_some hm).1
  have hanswer := Endpoint.answer_of_no_details id
    (show (RemoteError.noSuchProxy proxy).details = none from rfl)
  rw [step_of_receives hm]
  simp only [Endpoint.dispatch, hfree, Option.isSome_none, Bool.false_eq_true, if_false]
  cases h.endpoint.registry.get? proxy with
  | some g => rfl
  | none =>
      show (h.endpoint.enqueue _).2 = _
      rw [Endpoint.enqueue_snd, if_pos hopen, hanswer]

/-- A request whose id is still being worked on is dropped. -/
theorem step_repeated (hm : h.receives? (.receive frame) = some (.request id proxy method args))
    (hbusy : (h.endpoint.runFor? id).isSome = true) : h.step (.receive frame) = (h, []) := by
  rw [step_of_receives hm]
  simp only [Endpoint.dispatch, hbusy, if_true]
  exact follow_nil h h.endpoint

/-- **A notification is served by whoever is registered when it arrives**, if anyone is. -/
theorem step_notification
    (hm : h.receives? (.receive frame) = some (.notification proxy method args)) :
    (h.step (.receive frame)).2 =
      match h.endpoint.registry.get? proxy with
      | some g => [.started (h.endpoint.newRun none proxy method args g)]
      | none => [] := by
  rw [step_of_receives hm]
  simp only [Endpoint.dispatch]
  cases h.endpoint.registry.get? proxy <;> rfl

end

/-- **Only a request for a service that is not there is answered so.** -/
theorem misses_of_noSuchProxy {h : Host η} {a : Act η} {o : Outbound} {id : RequestId}
    {err : RemoteError} (hq : h.queues? a = some o) (ho : o.message = .replyErr id err)
    (hcode : err.code = .noSuchProxy) :
    ∃ proxy, h.Misses a id o proxy ∧ err = .noSuchProxy proxy := by
  cases posting hq with
  | miss id' proxy message misses =>
      subst message
      cases ho
      exact ⟨proxy, misses, rfl⟩
  | outcome id' r out message ends =>
      subst message
      exact absurd hcode (Outcome.code_message ho)
  | replacement o' err' id' bounced answers message =>
      subst message
      cases ho
      cases hcode
  | _ => subst_vars; cases ho

/-- **A run goes on with its handler** until it is reaped, and it is reaped only when it can end. -/
theorem run_kept {h : Host η} (htidy : h.Tidy) (a : Act η) {r : Run η}
    (hr : r ∈ h.endpoint.runs) :
    (∃ r' ∈ (h.step a).1.endpoint.runs, r'.asBegun = r.asBegun) ∨
      a = .op (.reap r.serial) ∧ (h.ending? r).isSome = true := by
  by_cases hends : h.ends? a = some r.serial
  · right
    cases a with
    | op o =>
        cases o with
        | reap serial =>
            obtain ⟨out, hout, rfl⟩ := Option.map_eq_some_iff.mp hends
            rw [(htidy.run?_eq_some r).mpr hr, Option.bind_some] at hout
            exact ⟨rfl, Option.isSome_iff_exists.mpr ⟨out, hout⟩⟩
        | _ => cases hends
    | _ => cases hends
  · exact Or.inl ⟨_, (h.mem_runs_step a _).mpr (Or.inl ⟨r, hr, hends, rfl⟩), rfl⟩

end Host

namespace Chronicle

variable [Handler η]

/-! ## Runs and their beginnings -/

/-- The run began when a message arrived, and was assigned to the handler that had been registered
last by then. -/
def Assigned (past : List (Moment η)) (r : Run η) : Prop :=
  ∃ before m after, past = before ++ m :: after ∧ m.host.starts? m.act = some r.asBegun ∧
    Registered before r.proxy r.handler

theorem Assigned.concat {past : List (Moment η)} {r : Run η} (h : Assigned past r) (m : Moment η) :
    Assigned (past ++ [m]) r := by
  obtain ⟨before, m₀, after, rfl, hstarts, hserves⟩ := h
  exact ⟨before, m₀, after ++ [m], by simp, hstarts, hserves⟩

/-- A run that has been told to stop stays with its handler. -/
theorem Assigned.tell {past : List (Moment η)} {r : Run η} (h : Assigned past r) (b : Bool) :
    Assigned past (r.tell b) := h

/-- **Runs keep the handlers with which they began**, and these were the last to be registered under
their ids when the runs began. -/
theorem assigned_run (c : Config) (acts : List (Act η)) :
    ∀ r ∈ ((ofConfig c).run acts).host.endpoint.runs, Assigned ((ofConfig c).run acts).past r := by
  induction acts using List.reverseRecOn with
  | nil => exact fun r hr => absurd hr List.not_mem_nil
  | append_singleton acts a ih =>
      have hserves := serves_iff (η := η) c acts
      rw [run_concat]
      generalize (ofConfig c).run acts = x at ih hserves ⊢
      intro r hr
      rcases (x.host.mem_runs_step a r).mp hr with ⟨r₀, hr₀, -, rfl⟩ | hstarts
      · exact ((ih r₀ hr₀).tell _).concat _
      · have hfired := (Host.starts?_eq_some hstarts).fired
        refine ⟨x.past, ⟨x.host, a⟩, [], rfl, ?_,
          (hserves r.proxy r.handler).mp (Host.starts?_eq_some hstarts).hosted⟩
        rw [hstarts]
        exact congrArg some (by rw [Run.asBegun, ← hfired])

/-- The runs of every moment of the past had begun by then. -/
theorem assigned_past (c : Config) (acts : List (Act η)) :
    ∀ m ∈ ((ofConfig c).run acts).past, ∀ r ∈ m.host.endpoint.runs,
      Assigned ((ofConfig c).run acts).past r := by
  induction acts using List.reverseRecOn with
  | nil => exact fun m hm => absurd hm List.not_mem_nil
  | append_singleton acts a ih =>
      have hnow := assigned_run c acts
      rw [run_concat]
      intro m hm r hr
      rcases List.mem_append.mp hm with hm | hm
      · exact (ih m hm r hr).concat _
      · rw [List.mem_singleton.mp hm] at hr
        exact (hnow r hr).concat _

/-! ## Runs and their answers -/

/-- What a run is answered with: the outcome of its handler, or, if the handler lets it, that it was
aborted. -/
def Ending (past : List (Moment η)) (r : Run η) (out : Outcome) : Prop :=
  (out.isOwn = true ∧ ∃ m ∈ past, m.act = .op (.conclude r.serial out)) ∨
    (out = .aborted ∧ Handler.isCancellable r.handler r.method = true)

/-- **A request is answered by the handler to which its run was assigned**, or because there was
none. -/
theorem answered_run (c : Config) (acts : List (Act η)) :
    ∀ m ∈ ((ofConfig c).run acts).past, ∀ o ∈ queuedIn m.events, ∀ id, o.answers? = some id →
      (∃ r ∈ m.host.endpoint.runs, r.request = some id ∧ Assigned ((ofConfig c).run acts).past r ∧
        ∃ out, o.message = out.message id ∧ Ending ((ofConfig c).run acts).past r out) ∨
      ∃ proxy, m.host.Misses m.act id o proxy := by
  have hinv := (sound_tidy (η := η) c acts).2
  have hpast := assigned_past (η := η) c acts
  have hconcluded := (concluded_run (η := η) c acts).2
  generalize (ofConfig c).run acts = x at hinv hpast hconcluded ⊢
  intro m hm o ho id hid
  obtain ⟨hsound, htidy⟩ := hinv m hm
  replace ho : o ∈ queuedIn (m.host.step m.act).2 := ho
  rw [hsound.queuedIn_step, Option.mem_toList] at ho
  rcases Host.source_of_answers ho hid with ⟨r, out, hends⟩ | hmisses
  · have hr : r ∈ m.host.endpoint.runs := List.mem_of_find?_eq_some hends.run
    refine Or.inl ⟨r, hr, hends.request, hpast m hm r hr, out, hends.message, ?_⟩
    rcases Host.ending?_eq_some hends.ending with hmem | ⟨haborted, habort, -⟩
    · exact Or.inl (hconcluded m hm _ hmem)
    · rw [htidy.abortable r hr, hends.request, Option.isSome_some, Bool.true_and] at habort
      exact Or.inr ⟨haborted, habort⟩
  · exact Or.inr hmisses

/-! ## The whole story -/

/-- Who serves the messages that arrive at an endpoint, whatever has been registered and removed. -/
structure Services (x : Chronicle η) : Prop where
  /-- A request whose id is not being worked on is served by the handler that was registered last
  under its service id, and has not been removed since. Nothing else happens but that the run
  begins, and the handler decides whether the run may be aborted. -/
  request : ∀ frame id proxy method args,
    x.host.receives? (.receive frame) = some (.request id proxy method args) →
      x.host.endpoint.runFor? id = none → ∀ g, Registered x.past proxy g →
        ∃ r, (x.host.step (.receive frame)).2 = [.started r] ∧ r.handler = g ∧
          r.request = some id ∧ r.proxy = proxy ∧ r.method = method ∧ r.args = args ∧
            r.abortable = Handler.isCancellable g method
  /-- So is a notification, which is never aborted. -/
  notification : ∀ frame proxy method args,
    x.host.receives? (.receive frame) = some (.notification proxy method args) →
      ∀ g, Registered x.past proxy g →
        ∃ r, (x.host.step (.receive frame)).2 = [.started r] ∧ r.handler = g ∧
          r.request = none ∧ r.proxy = proxy ∧ r.method = method ∧ r.args = args ∧
            r.abortable = false
  /-- If no handler is registered, the caller is told so and nothing else happens. -/
  missing : ∀ frame id proxy method args,
    x.host.receives? (.receive frame) = some (.request id proxy method args) →
      x.host.endpoint.runFor? id = none → (∀ g, ¬ Registered x.past proxy g) →
        (x.host.step (.receive frame)).2 =
          [.queued { message := .replyErr id (.noSuchProxy proxy) }]
  /-- A notification for which no handler is registered comes to nothing. -/
  unheard : ∀ frame proxy method args,
    x.host.receives? (.receive frame) = some (.notification proxy method args) →
      (∀ g, ¬ Registered x.past proxy g) → (x.host.step (.receive frame)).2 = []
  /-- A request whose id is being worked on comes to nothing, whoever is registered. -/
  repeated : ∀ frame id proxy method args,
    x.host.receives? (.receive frame) = some (.request id proxy method args) →
      (x.host.endpoint.runFor? id).isSome = true → x.host.step (.receive frame) = (x.host, [])
  /-- A caller is told that a service is not there only if that is so when its request arrives. -/
  noSuchProxy : ∀ a, ∀ o ∈ queuedIn (x.host.step a).2, ∀ id err, o.message = .replyErr id err →
    err.code = .noSuchProxy → ∃ proxy method args, err = .noSuchProxy proxy ∧
      x.host.receives? a = some (.request id proxy method args) ∧
        x.host.endpoint.runFor? id = none ∧ ∀ g, ¬ Registered x.past proxy g
  /-- Every run has the handler that was registered last when its message arrived, and the handler
  has decided whether the run may be aborted. -/
  begun : ∀ r ∈ x.host.endpoint.runs, Assigned x.past r ∧
    r.abortable = (r.request.isSome && Handler.isCancellable r.handler r.method)
  /-- No act takes a run away but one that ends it, and no act gives it another handler. -/
  kept : ∀ a, ∀ r ∈ x.host.endpoint.runs,
    (∃ r' ∈ (x.act a).host.endpoint.runs, r'.asBegun = r.asBegun) ∨
      a = .op (.reap r.serial) ∧ (x.host.ending? r).isSome = true
  /-- A request is answered by the handler with which its run began, or because no handler was
  registered when it arrived. -/
  answered : ∀ m ∈ x.past, ∀ o ∈ queuedIn m.events, ∀ id, o.answers? = some id →
    (∃ r ∈ m.host.endpoint.runs, r.request = some id ∧ Assigned x.past r ∧
      ∃ out, o.message = out.message id ∧ Ending x.past r out) ∨
    ∃ proxy, m.host.Misses m.act id o proxy
  /-- Whoever registers or removes a handler gets back the one that is displaced. -/
  displaced : ∀ id g g', ((x.host.endpoint.registry.register id g).2 = some g' ↔
      Registered x.past id g') ∧
    ((x.host.endpoint.registry.unregister id).2 = some g' ↔ Registered x.past id g')
  /-- So does whoever does so through the endpoint. -/
  displacedBy : ∀ (i : Identifier) g',
    ((x.host.endpoint.unset i).2 = some g' ↔ Registered x.past i.id g') ∧
      (i.side = x.host.endpoint.side → ∀ g, ∃ e old,
        x.host.endpoint.set i g = .ok (e, old) ∧ (old = some g' ↔ Registered x.past i.id g'))

/-- **The handler that serves a message is the one that was registered last when it arrived**, for
as long as it takes and whatever else is registered or removed. -/
theorem services (c : Config) (acts : List (Act η)) : Services ((ofConfig c).run acts) := by
  have hserves := serves_iff (η := η) c acts
  have hinv := (sound_tidy (η := η) c acts).1
  have hbegun := assigned_run (η := η) c acts
  have hanswered := answered_run (η := η) c acts
  generalize (ofConfig c).run acts = x at hserves hinv hbegun hanswered ⊢
  obtain ⟨hsound, htidy⟩ := hinv
  have hnone : ∀ proxy, (∀ g, ¬ Registered x.past proxy g) →
      x.host.endpoint.registry.get? proxy = none := fun proxy hno =>
    Option.eq_none_iff_forall_ne_some.mpr fun g hg => hno g ((hserves proxy g).mp hg)
  refine { request := ?request, notification := ?notification, missing := ?missing,
           unheard := ?unheard, repeated := fun _ _ _ _ _ => Host.step_repeated,
           noSuchProxy := ?noSuchProxy, begun := fun r hr => ⟨hbegun r hr, htidy.abortable r hr⟩,
           kept := fun a _ => Host.run_kept htidy a, answered := hanswered,
           displaced := fun id _ g' => ⟨hserves id g', hserves id g'⟩,
           displacedBy := fun i g' => ⟨hserves i.id g', fun hside g => ?set⟩ }
  case request =>
    intro frame id proxy method args hm hfree g hg
    refine ⟨x.host.endpoint.newRun (some id) proxy method args g, ?_, rfl, rfl, rfl, rfl, rfl, rfl⟩
    rw [Host.step_request hm hfree, (hserves proxy g).mpr hg]
  case notification =>
    intro frame proxy method args hm g hg
    refine ⟨x.host.endpoint.newRun none proxy method args g, ?_, rfl, rfl, rfl, rfl, rfl, rfl⟩
    rw [Host.step_notification hm, (hserves proxy g).mpr hg]
  case missing =>
    intro frame id proxy method args hm hfree hno
    rw [Host.step_request hm hfree, hnone proxy hno]
  case unheard =>
    intro frame proxy method args hm hno
    rw [Host.step_notification hm, hnone proxy hno]
  case noSuchProxy =>
    intro a o ho id err hmessage hcode
    rw [hsound.queuedIn_step, Option.mem_toList] at ho
    obtain ⟨proxy, hmisses, rfl⟩ := Host.misses_of_noSuchProxy ho hmessage hcode
    obtain ⟨method, args, hm⟩ := hmisses.receives
    refine ⟨proxy, method, args, rfl, hm, hmisses.free, fun g hg => ?_⟩
    have hmissing := hmisses.missing
    rw [(hserves proxy g).mpr hg] at hmissing
    cases hmissing
  case set =>
    refine ⟨{ x.host.endpoint with registry := (x.host.endpoint.registry.register i.id g).1 },
      x.host.endpoint.registry.get? i.id, ?_, hserves i.id g'⟩
    rw [Endpoint.set, if_neg (not_not.mpr hside)]
    rfl

end Chronicle

end PeerRpc
