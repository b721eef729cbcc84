import PeerRpc.Proofs.Endpoint.Traffic
import PeerRpc.Proofs.Host.Settlement

/-!
# PeerRpc.Proofs.Host.Traffic -- what each act sends, begins, ends and tells

Four functions read off a host and an act what the act does besides settling calls: `Host.queues?`
is the message that it queues, `Host.starts?` the run that it begins, `Host.ends?` the number of
the run that it ends, and `Host.tells` says which runs it tells to stop. `Agrees.queuedIn_step` and
`works_step` prove them right, and later proofs never open an act again.
-/

namespace PeerRpc

variable {η : Type}

namespace Endpoint

/-- The message that makes a call, unless it is refused. -/
def requests? (e : Endpoint η) (proxy : ProxyId) (method : String) (args : List Value) :
    Option Outbound :=
  if (e.refusal? proxy method args).isNone then
    some { message := .request ⟨e.nextId⟩ proxy method args }
  else none

/-- The message that notifies a service, unless it is refused. -/
def notifies? (e : Endpoint η) (proxy : ProxyId) (method : String) (args : List Value) :
    Option Outbound :=
  if e.isOpen then
    (Codec.encodeMessage (.notification proxy method args)).toOption.map fun _ =>
      { message := .notification proxy method args }
  else none

/-- The message that takes a call back that waits. -/
def cancels? (e : Endpoint η) (id : RequestId) : Option Outbound :=
  if id ∈ e.waiting ∧ e.isOpen = true then some { message := .cancel id } else none

/-- The message that answers a request. -/
def answers? (e : Endpoint η) (id : RequestId) (reply : Except RemoteError Value) :
    Option Outbound :=
  if e.isOpen then some { message := answer id reply } else none

/-- The message that stands in for a refused one. -/
def replaces? (e : Endpoint η) (o : Outbound) (err : TransportError) : Option Outbound :=
  if e.isOpen then
    o.answers?.map fun id => { message := .replyErr id (undelivered err), lastResort := true }
  else none

end Endpoint

namespace Host

/-! ## Reading an act -/

/-- The message that arrives with an act, if the endpoint is open and can read it. -/
def receives? (h : Host η) : Act η → Option Message
  | .receive frame => if h.endpoint.isOpen then (Codec.decodeMessage frame).toOption else none
  | _ => none

/-- The message that the channel refuses with an act, and why, unless the channel is at its end. -/
def bounced? (h : Host η) : Act η → Option (Outbound × TransportError)
  | .sent (.error err) => if err.isTerminal then none else h.sending.map fun o => (o, err)
  | _ => none

/-- Whether an act closes the endpoint. -/
def closes (h : Host η) : Act η → Bool
  | .op .close => h.endpoint.isOpen
  | .sent (.error err) => h.endpoint.isOpen && err.isTerminal && h.sending.isSome
  | _ => false

/-- The message that an act queues. -/
def queues? (h : Host η) : Act η → Option Outbound
  | .op (.invoke i method args) =>
    if h.endpoint.nextId = 0 ∨ i.side = h.endpoint.side then none
    else h.endpoint.requests? i.id method args
  | .op (.request proxy method args) =>
    if h.endpoint.nextId = 0 then none else h.endpoint.requests? proxy method args
  | .op (.notify i method args) =>
    if i.side = h.endpoint.side then none else h.endpoint.notifies? i.id method args
  | .op (.notifyProxy proxy method args) => h.endpoint.notifies? proxy method args
  | .op (.cancel k) => takesBack? k (.op (.cancel k))
  | .op (.drop k) => takesBack? k (.op (.drop k))
  | .op (.poll k) => takesBack? k (.op (.poll k))
  | .op (.reap serial) =>
    (h.endpoint.run? serial).bind fun r => (h.ending? r).bind fun o =>
      r.request.bind fun id => h.endpoint.answers? id o.toReply
  | .receive frame =>
    match h.receives? (.receive frame) with
    | some (.request id proxy _ _) =>
      if (h.endpoint.runFor? id).isNone ∧ (h.endpoint.registry.get? proxy).isNone then
        h.endpoint.answers? id (.error (.noSuchProxy proxy))
      else none
    | _ => none
  | .sent r => (h.bounced? (.sent r)).bind fun p => h.endpoint.replaces? p.1 p.2
  | _ => none
where
  /-- The message that takes the call `k` back, if the act ends it. -/
  takesBack? (k : Nat) (a : Act η) : Option Outbound :=
    (h.calls[k]?).bind fun q =>
      if (q.cause? h k a).isSome then q.call.id.bind h.endpoint.cancels? else none

-- The equations of `queues?`, so that no proof has to take all its cases apart.
section Queues

variable (h : Host η)

theorem queues?_invoke (i : Identifier) (method : String) (args : List Value) :
    h.queues? (.op (.invoke i method args)) =
      if h.endpoint.nextId = 0 ∨ i.side = h.endpoint.side then none
      else h.endpoint.requests? i.id method args := rfl

theorem queues?_request (proxy : ProxyId) (method : String) (args : List Value) :
    h.queues? (.op (.request proxy method args)) =
      if h.endpoint.nextId = 0 then none else h.endpoint.requests? proxy method args := rfl

theorem queues?_notify (i : Identifier) (method : String) (args : List Value) :
    h.queues? (.op (.notify i method args)) =
      if i.side = h.endpoint.side then none else h.endpoint.notifies? i.id method args := rfl

theorem queues?_cancel (k : Nat) :
    h.queues? (.op (.cancel k)) = queues?.takesBack? h k (.op (.cancel k)) := rfl

theorem queues?_drop (k : Nat) :
    h.queues? (.op (.drop k)) = queues?.takesBack? h k (.op (.drop k)) := rfl

theorem queues?_poll (k : Nat) :
    h.queues? (.op (.poll k)) = queues?.takesBack? h k (.op (.poll k)) := rfl

theorem queues?_reap (serial : Nat) :
    h.queues? (.op (.reap serial)) =
      (h.endpoint.run? serial).bind fun r => (h.ending? r).bind fun o =>
        r.request.bind fun id => h.endpoint.answers? id o.toReply := rfl

theorem queues?_sent (r : Except TransportError Unit) :
    h.queues? (.sent r) = (h.bounced? (.sent r)).bind fun p => h.endpoint.replaces? p.1 p.2 := rfl

end Queues

/-- The run that an act begins. -/
def starts? [Handler η] (h : Host η) (a : Act η) : Option (Run η) :=
  match h.receives? a with
  | some (.request id proxy method args) =>
    if (h.endpoint.runFor? id).isNone then
      (h.endpoint.registry.get? proxy).map (h.endpoint.newRun (some id) proxy method args)
    else none
  | some (.notification proxy method args) =>
    (h.endpoint.registry.get? proxy).map (h.endpoint.newRun none proxy method args)
  | _ => none

/-- The number of the run that an act ends. -/
def ends? (h : Host η) : Act η → Option Nat
  | .op (.reap serial) => ((h.endpoint.run? serial).bind h.ending?).map fun _ => serial
  | _ => none

/-- Whether an act tells a run to stop. -/
def tells (h : Host η) (a : Act η) (r : Run η) : Bool :=
  match a with
  | .op (.stop serial) => r.serial = serial
  | a =>
    match h.receives? a with
    | some (.cancel id) => ((h.endpoint.runFor? id).map Run.serial) = some r.serial
    | _ => h.closes a

/-! ## Messages -/

theorem queuedIn_attempt_notifyProxy (h : Host η) (proxy : ProxyId) (method : String)
    (args : List Value) :
    queuedIn (h.attempt (h.endpoint.notifyProxy proxy method args)).2 =
      (h.endpoint.notifies? proxy method args).toList := by
  simp only [Endpoint.notifies?, Endpoint.notifyProxy]
  cases hopen : h.endpoint.isOpen with
  | false => rfl
  | true =>
      cases Codec.encodeMessage (.notification proxy method args) with
      | error err => rfl
      | ok bs =>
          show queuedIn (h.endpoint.enqueue _).2 = _
          rw [Endpoint.queuedIn_enqueue, if_pos hopen]
          rfl

theorem calm_attempt_notifyProxy (h : Host η) (proxy : ProxyId) (method : String)
    (args : List Value) :
    Endpoint.Calm h.endpoint
      ((h.attempt (h.endpoint.notifyProxy proxy method args)).1.endpoint,
        (h.attempt (h.endpoint.notifyProxy proxy method args)).2) := by
  cases hr : h.endpoint.notifyProxy proxy method args with
  | error err => exact .refl _
  | ok s => exact Endpoint.calm_notifyProxy hr

theorem queuedIn_onCall (h : Host η) (k : Nat) (f : Call → Call × Endpoint.Step η) :
    queuedIn (h.onCall k f).2 =
      ((h.calls[k]?).map fun q => queuedIn (f q.call).2.2).getD [] := by
  unfold onCall
  cases h.calls[k]? <;> rfl

theorem queuedIn_cancelWith (c : Call) (reason : CallError) (e : Endpoint η) :
    queuedIn (c.cancelWith reason e).2.2 = (c.id.bind e.cancels?).toList := by
  unfold Call.cancelWith
  cases c.id with
  | none => rfl
  | some id =>
      simp only [Option.bind_some, Endpoint.cancels?]
      rw [Endpoint.queuedIn_cancelRequest]
      split <;> rfl

theorem queuedIn_invoke (h : Host η) (i : Identifier) (method : String) (args : List Value) :
    queuedIn (h.operate (.invoke i method args)).2 =
      (h.queues? (.op (.invoke i method args))).toList := by
  rw [operate_invoke, queues?_invoke]
  by_cases hn : h.endpoint.nextId = 0
  · rw [if_pos hn, if_pos (Or.inl hn)]
    rfl
  · by_cases hside : i.side = h.endpoint.side
    · rw [if_neg hn, if_pos hside, if_pos (Or.inr hside)]
      rfl
    · rw [if_neg hn, if_neg hside, if_neg (not_or.mpr ⟨hn, hside⟩)]
      show queuedIn (h.endpoint.request i.id method args).2.2 = _
      rw [Endpoint.queuedIn_request, Endpoint.requests?]
      split <;> rfl

theorem queuedIn_drop (h : Host η) (k : Nat) :
    queuedIn (h.operate (.drop k)).2 = (h.queues? (.op (.drop k))).toList := by
  show queuedIn (h.onCall k fun c => (c, c.drop h.endpoint)).2 = _
  rw [queuedIn_onCall]
  simp only [queues?_drop, queues?.takesBack?, Asked.cause?, decide_true, Bool.true_and]
  cases h.calls[k]? with
  | none => rfl
  | some q =>
      simp only [Option.map_some, Option.getD_some, Option.bind_some, Call.drop]
      cases q.call.settled with
      | true => rfl
      | false => exact queuedIn_cancelWith q.call .cancelled h.endpoint

/-- A call that has its result does not wait, so there is nobody to tell that it is taken back. -/
theorem Agrees.not_cancels? {h : Host η} (hh : h.Agrees) {q : Asked} (hq : q ∈ h.calls)
    {r : CallResult} (hd : q.call.delivered = some r) :
    q.call.id.bind h.endpoint.cancels? = none := by
  cases hid : q.call.id with
  | none => rfl
  | some id =>
      have hwaits := hh.mem_waiting_iff hq hid
      rw [hd] at hwaits
      rw [Option.bind_some, Endpoint.cancels?, if_neg]
      intro hand
      cases hwaits.mp hand.1

theorem Agrees.queuedIn_poll {h : Host η} (hh : h.Agrees) (k : Nat) :
    queuedIn (h.operate (.poll k)).2 = (h.queues? (.op (.poll k))).toList := by
  show queuedIn (h.onCall k fun c => (c.poll h.now h.endpoint).2).2 = _
  rw [queuedIn_onCall]
  simp only [queues?_poll, queues?.takesBack?, Asked.cause?, decide_true, Bool.true_and]
  cases hq : h.calls[k]? with
  | none => rfl
  | some q =>
      simp only [Option.map_some, Option.getD_some, Option.bind_some]
      cases hd : q.call.delivered with
      | some r =>
          rw [hh.not_cancels? (List.mem_of_getElem? hq) hd]
          simp only [Call.poll, hd, ite_self]
          rfl
      | none =>
          simp only [Call.poll, hd, Call.deadline?]
          cases q.call.limit with
          | none => rfl
          | some d =>
              simp only [Option.map_some, decide_eq_true_eq]
              split
              · exact queuedIn_cancelWith q.call (.timeout d) h.endpoint
              · rfl

theorem queuedIn_reap (h : Host η) (serial : Nat) :
    queuedIn (h.operate (.reap serial)).2 = (h.queues? (.op (.reap serial))).toList := by
  simp only [operate, queues?_reap]
  cases hr : h.endpoint.run? serial with
  | none => rfl
  | some r =>
      simp only [Option.bind_some]
      cases h.ending? r with
      | none => rfl
      | some o =>
          show queuedIn (h.endpoint.finish serial o).2 = _
          rw [Endpoint.queuedIn_finish, hr]
          simp only [Option.bind_some, Endpoint.answers?]
          cases r.request with
          | none => rfl
          | some id =>
              simp only [Option.bind_some]
              split <;> rfl

theorem Agrees.queuedIn_operate {h : Host η} (hh : h.Agrees) (o : Op η) :
    queuedIn (h.operate o).2 = (h.queues? (.op o)).toList := by
  cases o with
  | invoke i method args => exact h.queuedIn_invoke i method args
  | request proxy method args =>
      simp only [operate, queues?_request]
      by_cases hn : h.endpoint.nextId = 0
      · rw [if_pos hn, if_pos hn]
        rfl
      · rw [if_neg hn, if_neg hn]
        show queuedIn (h.endpoint.request proxy method args).2.2 = _
        rw [Endpoint.queuedIn_request, Endpoint.requests?]
        split <;> rfl
  | notify i method args =>
      show queuedIn (h.attempt (h.endpoint.notify i method args)).2 = _
      simp only [queues?_notify, Endpoint.notify, Endpoint.proxyFor]
      by_cases hside : i.side = h.endpoint.side
      · rw [if_pos hside, if_pos hside]
        rfl
      · rw [if_neg hside, if_neg hside]
        exact h.queuedIn_attempt_notifyProxy i.id method args
  | notifyProxy proxy method args => exact h.queuedIn_attempt_notifyProxy proxy method args
  | cancel k =>
      show queuedIn (h.onCall k fun c => (c, (c.cancel h.endpoint).2)).2 = _
      rw [queuedIn_onCall]
      simp only [queues?_cancel, queues?.takesBack?, Asked.cause?, if_true]
      cases h.calls[k]? with
      | none => rfl
      | some q => exact queuedIn_cancelWith q.call .cancelled h.endpoint
  | drop k => exact h.queuedIn_drop k
  | poll k => exact hh.queuedIn_poll k
  | set i handler =>
      rw [operate_set]
      split <;> rfl
  | conclude serial o =>
      simp only [operate]
      split <;> rfl
  | stop serial => exact Endpoint.queuedIn_fire _ _
  | reap serial => exact h.queuedIn_reap serial
  | close => exact Endpoint.queuedIn_close _
  | _ => rfl

theorem queuedIn_receive [Handler η] (h : Host η) (frame : Bytes) :
    queuedIn (h.endpoint.receive frame).2 = (h.queues? (.receive frame)).toList := by
  simp only [Endpoint.receive, queues?, receives?]
  cases hopen : h.endpoint.isOpen with
  | false => rfl
  | true =>
      simp only [if_true]
      cases Codec.decodeMessage frame with
      | error err => rfl
      | ok m =>
          show queuedIn (h.endpoint.dispatch m).2 = _
          rw [Endpoint.queuedIn_dispatch]
          cases m with
          | request id proxy method args =>
              simp only [Except.toOption, Endpoint.answers?, hopen, and_true, if_true]
              split <;> rfl
          | _ => rfl

theorem queuedIn_sent [Handler η] (h : Host η) (r : Except TransportError Unit) :
    queuedIn (h.step (.sent r)).2 = (h.queues? (.sent r)).toList := by
  cases hs : h.sending with
  | none => cases r <;> simp [Host.step, queues?_sent, bounced?, hs, queuedIn]
  | some o =>
      cases r with
      | ok u => simp [Host.step, queues?_sent, bounced?, hs, queuedIn]
      | error err =>
          rw [step_sent_error hs, follow]
          simp only [queues?_sent, bounced?, hs, Option.map_some]
          split
          · exact Endpoint.queuedIn_close _
          · rw [Endpoint.queuedIn_undeliverable, Option.bind_some, Endpoint.replaces?]
            cases o.answers? with
            | none => cases h.endpoint.isOpen <;> rfl
            | some id => cases h.endpoint.isOpen <;> rfl

/-- **The message that an act queues.** -/
theorem Agrees.queuedIn_step [Handler η] {h : Host η} (hh : h.Agrees) (a : Act η) :
    queuedIn (h.step a).2 = (h.queues? a).toList := by
  cases a with
  | op o => exact hh.queuedIn_operate o
  | receive frame => exact h.queuedIn_receive frame
  | take =>
      simp only [Host.step]
      split <;> rfl
  | sent r => exact h.queuedIn_sent r

/-! ## Runs -/

/-- What an act leaves of the runs and begins. -/
structure Works [Handler η] (h : Host η) (a : Act η) (x : Host η × List (Event η)) : Prop where
  runs : x.1.endpoint.runs =
    (h.endpoint.runs.filter fun r => h.ends? a ≠ some r.serial).map (fun r => r.tell (h.tells a r)) ++
      (h.starts? a).toList
  nextRun : x.1.endpoint.nextRun = h.endpoint.nextRun + (h.starts? a).toList.length
  started : startedIn x.2 = (h.starts? a).toList

variable [Handler η]

/-- A step that begins, ends and tells nothing. -/
theorem Works.of_calm {h : Host η} {a : Act η} {x : Host η × List (Event η)}
    (hx : Endpoint.Calm h.endpoint (x.1.endpoint, x.2)) (hs : h.starts? a = none)
    (he : h.ends? a = none) (ht : ∀ r, h.tells a r = false) : h.Works a x where
  runs := by
    have hwork : x.1.endpoint.runs = h.endpoint.runs := congrArg Prod.fst hx.work
    simp [hwork, hs, he, ht]
  nextRun := by
    have hwork : x.1.endpoint.nextRun = h.endpoint.nextRun := congrArg Prod.snd hx.work
    simp [hwork, hs]
  started := by
    rw [hs]
    exact hx.started

/-- A step that tells some runs to stop. -/
theorem Works.of_tell {h : Host η} {a : Act η} {x : Host η × List (Event η)}
    (hr : x.1.endpoint.runs = h.endpoint.runs.map fun r => r.tell (h.tells a r))
    (hn : x.1.endpoint.nextRun = h.endpoint.nextRun) (hx : startedIn x.2 = [])
    (hs : h.starts? a = none) (he : h.ends? a = none) : h.Works a x where
  runs := by simp [hr, hs, he]
  nextRun := by simp [hn, hs]
  started := by
    rw [hs]
    exact hx

/-- A step that begins a run. -/
theorem Works.of_start {h : Host η} {a : Act η} {r : Run η}
    (hs : h.starts? a = some r) (he : h.ends? a = none) (ht : ∀ r, h.tells a r = false)
    {e : Endpoint η} {events : List (Event η)} (hr : e.runs = h.endpoint.runs ++ [r])
    (hn : e.nextRun = h.endpoint.nextRun + 1) (hx : startedIn events = [r]) :
    h.Works a (h.follow (e, events)) where
  runs := by
    show e.runs = _
    simp [hr, hs, he, ht]
  nextRun := by
    show e.nextRun = _
    simp [hn, hs]
  started := by
    rw [hs]
    exact hx

theorem works_onCall {h : Host η} {a : Act η} (k : Nat) {f : Call → Call × Endpoint.Step η}
    (hf : ∀ c, Endpoint.Calm h.endpoint (f c).2) (hs : h.starts? a = none)
    (he : h.ends? a = none) (ht : ∀ r, h.tells a r = false) : h.Works a (h.onCall k f) := by
  unfold onCall
  split
  · exact .of_calm (.refl _) hs he ht
  · next q hq => exact .of_calm (hf q.call) hs he ht

theorem works_reap (h : Host η) (serial : Nat) :
    h.Works (.op (.reap serial)) (h.operate (.reap serial)) := by
  simp only [operate]
  cases hr : (h.endpoint.run? serial).bind h.ending? with
  | none => exact .of_calm (.refl _) rfl (by simp only [ends?, hr]; rfl) fun _ => rfl
  | some out =>
      have he : h.ends? (.op (.reap serial)) = some serial := by simp only [ends?, hr]; rfl
      have hwork := h.endpoint.work_finish serial out
      refine ⟨?_, congrArg Prod.snd hwork, Endpoint.startedIn_finish _ _ _⟩
      refine (congrArg Prod.fst hwork).trans ?_
      have ht : ∀ r, h.tells (.op (.reap serial)) r = false := fun _ => rfl
      have hs : h.starts? (.op (.reap serial)) = none := rfl
      simp only [he, ht, hs, Run.tell_false, List.map_id', Option.toList_none,
        List.append_nil, ne_eq, Option.some.injEq]
      -- both compare the same two numbers, the other way round
      exact List.filter_congr fun r _ => by simp only [eq_comm]

theorem works_operate (h : Host η) (o : Op η) : h.Works (.op o) (h.operate o) := by
  have hquiet : ∀ {x : Host η × List (Event η)},
      Endpoint.Calm h.endpoint (x.1.endpoint, x.2) → h.ends? (.op o) = none →
      (∀ r, h.tells (.op o) r = false) → h.Works (.op o) x :=
    fun hx he ht => .of_calm hx rfl he ht
  cases o with
  | invoke i method args =>
      rw [operate_invoke]
      split
      · exact hquiet (.refl _) rfl fun _ => rfl
      · split
        · exact hquiet ⟨rfl, rfl⟩ rfl fun _ => rfl
        · exact hquiet (h.endpoint.calm_request _ _ _) rfl fun _ => rfl
  | request proxy method args =>
      simp only [operate]
      split
      · exact hquiet (.refl _) rfl fun _ => rfl
      · exact hquiet (h.endpoint.calm_request _ _ _) rfl fun _ => rfl
  | notify i method args =>
      simp only [operate, Endpoint.notify, Endpoint.proxyFor]
      by_cases hside : i.side = h.endpoint.side
      · rw [if_pos hside]
        exact hquiet (.refl _) rfl fun _ => rfl
      · rw [if_neg hside]
        exact hquiet (h.calm_attempt_notifyProxy i.id method args) rfl fun _ => rfl
  | notifyProxy proxy method args =>
      exact hquiet (h.calm_attempt_notifyProxy proxy method args) rfl fun _ => rfl
  | cancel k =>
      show h.Works (.op (.cancel k)) (h.onCall k fun c => (c, (c.cancel h.endpoint).2))
      exact works_onCall k (fun c => c.calm_cancelWith .cancelled _) rfl rfl fun _ => rfl
  | drop k =>
      show h.Works (.op (.drop k)) (h.onCall k fun c => (c, c.drop h.endpoint))
      exact works_onCall k (fun c => c.calm_drop _) rfl rfl fun _ => rfl
  | poll k =>
      show h.Works (.op (.poll k)) (h.onCall k fun c => (c.poll h.now h.endpoint).2)
      exact works_onCall k (fun c => c.calm_poll _ _) rfl rfl fun _ => rfl
  | wait ms => exact hquiet (.refl _) rfl fun _ => rfl
  | set i handler =>
      rw [operate_set]
      split
      · exact hquiet ⟨rfl, rfl⟩ rfl fun _ => rfl
      · exact hquiet (.refl _) rfl fun _ => rfl
  | unset i => exact hquiet ⟨rfl, rfl⟩ rfl fun _ => rfl
  | register proxy handler => exact hquiet ⟨rfl, rfl⟩ rfl fun _ => rfl
  | unregister proxy => exact hquiet ⟨rfl, rfl⟩ rfl fun _ => rfl
  | conclude serial o =>
      simp only [operate]
      split <;> exact hquiet ⟨rfl, rfl⟩ rfl fun _ => rfl
  | stop serial =>
      refine .of_tell ?_ ?_ (Endpoint.startedIn_fire _ _) rfl rfl
      · exact h.endpoint.runs_fire serial
      · show (h.endpoint.fire serial).1.nextRun = _
        rw [Endpoint.fire_fst]
  | reap serial => exact h.works_reap serial
  | close =>
      exact .of_tell h.endpoint.runs_close h.endpoint.nextRun_close (Endpoint.startedIn_close _)
        rfl rfl

section

variable {h : Host η} {frame : Bytes}

theorem Works.of_receives {m : Message} (hm : h.receives? (.receive frame) = some m)
    {s : Endpoint.Step η} (hs : Endpoint.Calm h.endpoint s)
    (hstart : h.starts? (.receive frame) = none) (hcancel : ∀ id, m ≠ .cancel id) :
    h.Works (.receive frame) (h.follow s) := by
  refine .of_calm hs hstart rfl fun r => ?_
  cases m with
  | cancel id => exact absurd rfl (hcancel id)
  | _ => simp only [tells, hm, closes]

theorem works_request {id : RequestId} {proxy : ProxyId} {method : String} {args : List Value}
    (hm : h.receives? (.receive frame) = some (.request id proxy method args)) :
    h.Works (.receive frame)
      (h.follow (h.endpoint.dispatch (.request id proxy method args))) := by
  simp only [Endpoint.dispatch]
  cases hrun : h.endpoint.runFor? id with
  | some r =>
      exact .of_receives hm (.refl _) (by simp only [starts?, hm, hrun]; rfl) fun _ h => by cases h
  | none =>
      cases hget : h.endpoint.registry.get? proxy with
      | none =>
          exact .of_receives hm (Endpoint.calm_enqueue _ _)
            (by simp only [starts?, hm, hrun, hget]; rfl) fun _ h => by cases h
      | some g =>
          refine .of_start ?_ rfl (fun r => ?_) rfl rfl rfl
          · simp only [starts?, hm, hrun, hget]
            rfl
          · simp only [tells, hm, closes]

theorem works_notification {proxy : ProxyId} {method : String} {args : List Value}
    (hm : h.receives? (.receive frame) = some (.notification proxy method args)) :
    h.Works (.receive frame)
      (h.follow (h.endpoint.dispatch (.notification proxy method args))) := by
  simp only [Endpoint.dispatch]
  cases hget : h.endpoint.registry.get? proxy with
  | none =>
      exact .of_receives hm (.refl _) (by simp only [starts?, hm, hget]; rfl) fun _ h => by cases h
  | some g =>
      refine .of_start ?_ rfl (fun r => ?_) rfl rfl rfl
      · simp only [starts?, hm, hget]
        rfl
      · simp only [tells, hm, closes]

theorem works_cancel {id : RequestId} (hm : h.receives? (.receive frame) = some (.cancel id)) :
    h.Works (.receive frame) (h.follow (h.endpoint.dispatch (.cancel id))) := by
  have hstart : h.starts? (.receive frame) = none := by simp only [starts?, hm]
  simp only [Endpoint.dispatch]
  cases hrun : h.endpoint.runFor? id with
  | none =>
      refine .of_calm (.refl _) hstart rfl fun r => ?_
      simp only [tells, hm, hrun, Option.map_none]
      rfl
  | some r₀ =>
      refine .of_tell ?_ ?_ (Endpoint.startedIn_fire _ _) hstart rfl
      · refine (h.endpoint.runs_fire r₀.serial).trans (List.map_congr_left ?_)
        intro r _
        simp only [tells, hm, hrun, Option.map_some, Option.some.injEq, eq_comm]
      · show (h.endpoint.fire r₀.serial).1.nextRun = _
        rw [Endpoint.fire_fst]

/-- A frame that is not read does nothing. -/
theorem works_unread (hm : h.receives? (.receive frame) = none) :
    h.Works (.receive frame) (h.follow (h.endpoint, [])) := by
  refine .of_calm (.refl _) ?_ rfl fun r => ?_
  · simp only [starts?, hm]
  · simp only [tells, hm, closes]

end

theorem works_receive (h : Host η) (frame : Bytes) :
    h.Works (.receive frame) (h.follow (h.endpoint.receive frame)) := by
  unfold Endpoint.receive
  cases hopen : h.endpoint.isOpen with
  | false => exact works_unread (by simp only [receives?, hopen]; rfl)
  | true =>
      rw [if_pos rfl]
      cases hdecode : Codec.decodeMessage frame with
      | error err => exact works_unread (by simp only [receives?, hopen, hdecode]; rfl)
      | ok m =>
          have hm : h.receives? (.receive frame) = some m := by
            simp only [receives?, hopen, hdecode]
            rfl
          show h.Works (.receive frame) (h.follow (h.endpoint.dispatch m))
          cases m with
          | request id proxy method args => exact works_request hm
          | notification proxy method args => exact works_notification hm
          | reply id v =>
              exact .of_receives hm (Endpoint.calm_settle _ _ _) (by simp only [starts?, hm])
                fun _ h => by cases h
          | replyErr id err =>
              exact .of_receives hm (Endpoint.calm_settle _ _ _) (by simp only [starts?, hm])
                fun _ h => by cases h
          | cancel id => exact works_cancel hm

/-- **The runs after an act.** -/
theorem works_step (h : Host η) (a : Act η) : h.Works a (h.step a) := by
  cases a with
  | op o => exact h.works_operate o
  | receive frame => exact h.works_receive frame
  | take =>
      simp only [step]
      split
      · next o e _ he =>
          obtain ⟨-, rest, -, rfl⟩ := Endpoint.dequeue_eq_some.mp he
          exact .of_calm ⟨rfl, rfl⟩ rfl rfl fun _ => rfl
      · exact .of_calm (.refl _) rfl rfl fun _ => rfl
  | sent r =>
      cases hs : h.sending with
      | none =>
          have hstep : h.step (.sent r) = (h, []) := by
            simp only [step, hs]
          rw [hstep]
          refine .of_calm (.refl _) rfl rfl fun _ => ?_
          cases r with
          | ok u => rfl
          | error err => simp [tells, receives?, closes, hs]
      | some o =>
          cases r with
          | ok u =>
              have hstep : h.step (.sent (.ok u)) = ({ h with sending := none }, []) := by
                simp only [step, hs]
              rw [hstep]
              exact .of_calm ⟨rfl, rfl⟩ rfl rfl fun _ => rfl
          | error err =>
              have ht : ∀ r, h.tells (.sent (.error err)) r =
                  (h.endpoint.isOpen && err.isTerminal) := by
                intro r
                simp [tells, receives?, closes, hs]
              rw [step_sent_error hs]
              cases hterm : err.isTerminal with
              | true =>
                  simp only [hterm, Bool.and_true] at ht
                  refine .of_tell ?_ h.endpoint.nextRun_close (Endpoint.startedIn_close _) rfl rfl
                  simp only [ht]
                  exact h.endpoint.runs_close
              | false =>
                  simp only [hterm, Bool.and_false] at ht
                  exact .of_calm (h.endpoint.calm_undeliverable o err) rfl rfl ht

end Host

end PeerRpc
