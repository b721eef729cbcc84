import PeerRpc.Opening
import PeerRpc.Proofs.Endpoint.Results
import PeerRpc.Proofs.Endpoint.Traffic

/-!
# PeerRpc.Proofs.Endpoint.Openings -- a call or a notification is started whole or not at all

`Opening.message` says which message the start of a call or of a notification sends out, or why it
sends none: the service is one of this side, an argument has no plain form, the endpoint is closed,
too many calls wait, or the message is nested too deep. From an endpoint and a message everything
else follows: the message joins the queue and a call gets its entry, both or neither
(`Opening.place_of_ok`, `Opening.place_of_error`).

A start is made in steps, and the entry of a call comes before its request. `Opening.placeApart`
says what becomes of it if others close the endpoint between the steps or take no more messages from
its queue. A call then takes its entry away again, unless the others have done so, and its caller is
told (`Endpoint.interrupted_enterApart`). So a start during which others do no more than that is
whole or nothing (`Opening.whole`). Starts that others make in between are those of a `Crowd`.
-/

namespace PeerRpc

variable {η : Type}

namespace Endpoint

/-! ## What goes out -/

/-- The request that makes a call, or why the call is refused. -/
def asking (e : Endpoint η) (proxy : ProxyId) (method : String) (args : List Value) :
    Except CallError Message :=
  match e.refusal? proxy method args with
  | some err => .error err
  | none => .ok (.request ⟨e.nextId⟩ proxy method args)

/-- The notification that is sent, or why it is refused. -/
def telling (e : Endpoint η) (proxy : ProxyId) (method : String) (args : List Value) :
    Except CallError Message :=
  if !e.isOpen then .error .disconnected
  else
    match Codec.encodeMessage (.notification proxy method args) with
    | .error err => .error (.codec err)
    | .ok _ => .ok (.notification proxy method args)

theorem asking_eq_ok {e : Endpoint η} {proxy : ProxyId} {method : String} {args : List Value}
    {m : Message} (h : e.asking proxy method args = .ok m) :
    e.refusal? proxy method args = none ∧ m = .request ⟨e.nextId⟩ proxy method args := by
  unfold asking at h
  split at h
  · cases h
  · next hr => exact ⟨hr, (Except.ok.inj h).symm⟩

theorem asking_eq_error {e : Endpoint η} {proxy : ProxyId} {method : String} {args : List Value}
    {err : CallError} (h : e.asking proxy method args = .error err) :
    e.refusal? proxy method args = some err := by
  unfold asking at h
  split at h
  · next hr => exact hr.trans (congrArg some (Except.error.inj h))
  · cases h

theorem telling_eq_ok {e : Endpoint η} {proxy : ProxyId} {method : String} {args : List Value}
    {m : Message} (h : e.telling proxy method args = .ok m) :
    e.isOpen = true ∧ m = .notification proxy method args ∧
      ∃ bs, Codec.encodeMessage m = .ok bs := by
  unfold telling at h
  split at h
  · cases h
  · next hopen =>
      split at h
      · cases h
      · next bs hbs =>
          cases h
          exact ⟨by simpa using hopen, rfl, bs, hbs⟩

theorem notifyProxy_of_telling (e : Endpoint η) (proxy : ProxyId) (method : String)
    (args : List Value) :
    e.notifyProxy proxy method args =
      (e.telling proxy method args).map fun m => e.enqueue { message := m } := by
  unfold notifyProxy telling
  dsimp only
  split
  · rfl
  · cases Codec.encodeMessage (.notification proxy method args) <;> rfl

end Endpoint

/-- The entry of the call that a message makes. -/
def Message.entry? : Message → Option (RequestId × ProxyId)
  | request id proxy .. => some (id, proxy)
  | _ => none

/-- The endpoint that has started what the message says. -/
def Endpoint.grown (e : Endpoint η) (m : Message) : Endpoint η :=
  { e with
    nextId := if m.entry?.isSome then e.nextId + 1 else e.nextId
    pending := e.pending ++ m.entry?.toList
    outbound := e.outbound ++ [{ message := m }] }

namespace Opening

variable {now : Nat} {e : Endpoint η} {o : Opening} {m : Message} {err : CallError}

/-- The service that is meant, which is none of this side, and the plain form of the arguments. -/
def target (e : Endpoint η) : Opening → Except CallError (ProxyId × List Value)
  | invoke i _ args => (e.proxyFor i).map fun proxy => (proxy, args)
  | request proxy _ args => .ok (proxy, args)
  | call proxy _ args => (intoArguments args).map fun vs => (proxy, vs)
  | notify i _ args => (e.proxyFor i).map fun proxy => (proxy, args)
  | tell proxy _ args => (intoArguments args).map fun vs => (proxy, vs)

/-- The message that goes out, or why none does. -/
def message (e : Endpoint η) (o : Opening) : Except CallError Message :=
  match o.target e with
  | .error err => .error err
  | .ok (proxy, args) =>
    if o.isCall then e.asking proxy o.method args else e.telling proxy o.method args

/-! ## What becomes of it -/

/-- **All ways to start are one**, once the service and the arguments are known. -/
theorem place_eq (now : Nat) (e : Endpoint η) (o : Opening) :
    o.place now e =
      match o.target e with
      | .error err =>
        ((e, []), if o.isCall then .call (.failed err) else .notice (.error err))
      | .ok (proxy, args) =>
        if o.isCall then called now e (.ok (e.request proxy o.method args))
        else noticed e (e.notifyProxy proxy o.method args) := by
  cases o with
  | invoke i method args =>
      rw [place, target, Endpoint.invoke]
      cases e.proxyFor i <;> rfl
  | request proxy method args => rfl
  | call proxy method args =>
      rw [place, target]
      cases intoArguments args <;> rfl
  | notify i method args =>
      rw [place, target, Endpoint.notify]
      cases e.proxyFor i <;> rfl
  | tell proxy method args =>
      rw [place, target]
      cases intoArguments args <;> rfl

/-- The caller's end of a call that has just been made. -/
def newCall (now : Nat) (e : Endpoint η) : Call :=
  { id := some ⟨e.nextId⟩, limit := e.config.requestTimeout, started := now }

theorem called_of_ok {proxy : ProxyId} {method : String} {args : List Value}
    (h : e.asking proxy method args = .ok m) :
    called now e (.ok (e.request proxy method args)) =
      ((e.grown m, [.queued { message := m }]), .call (newCall now e)) := by
  obtain ⟨hr, rfl⟩ := Endpoint.asking_eq_ok h
  have hrequest : e.request proxy method args = (⟨e.nextId⟩, _) :=
    Prod.ext (Endpoint.request_id e proxy method args) (Endpoint.request_of_none hr)
  rw [hrequest]
  rfl

theorem called_of_error {proxy : ProxyId} {method : String} {args : List Value}
    (h : e.asking proxy method args = .error err) :
    called now e (.ok (e.request proxy method args)) =
      (({ e with nextId := e.nextId + 1 }, [.settled ⟨e.nextId⟩ (.error err)]),
        .call { newCall now e with delivered := some (.error err) }) := by
  have hrequest : e.request proxy method args = (⟨e.nextId⟩, _) :=
    Prod.ext (Endpoint.request_id e proxy method args)
      (Endpoint.request_of_refusal (Endpoint.asking_eq_error h))
  rw [hrequest]
  simp [called, newCall, Call.hear, Call.deliver]

theorem noticed_of_ok {proxy : ProxyId} {method : String} {args : List Value}
    (h : e.telling proxy method args = .ok m) :
    noticed e (e.notifyProxy proxy method args) =
      ((e.grown m, [.queued { message := m }]), .notice (.ok ())) := by
  obtain ⟨hopen, rfl, -⟩ := Endpoint.telling_eq_ok h
  rw [Endpoint.notifyProxy_of_telling, h]
  simp [noticed, Except.map, Endpoint.enqueue, hopen, Endpoint.grown, Message.entry?]

theorem noticed_of_error {proxy : ProxyId} {method : String} {args : List Value}
    (h : e.telling proxy method args = .error err) :
    noticed e (e.notifyProxy proxy method args) = ((e, []), .notice (.error err)) := by
  rw [Endpoint.notifyProxy_of_telling, h]
  rfl

/-- Where a message that goes out comes from. -/
theorem message_eq_ok (h : o.message e = .ok m) :
    ∃ proxy args, o.target e = .ok (proxy, args) ∧
      (o.isCall = true ∧ e.asking proxy o.method args = .ok m ∨
        o.isCall = false ∧ e.telling proxy o.method args = .ok m) := by
  rw [message] at h
  cases htarget : o.target e with
  | error err =>
      rw [htarget] at h
      cases h
  | ok x =>
      rw [htarget] at h
      refine ⟨x.1, x.2, rfl, ?_⟩
      cases hcall : o.isCall <;> simp_all

/-- Where the error comes from that keeps a message back. -/
theorem message_eq_error (h : o.message e = .error err) :
    o.target e = .error err ∨ ∃ proxy args, o.target e = .ok (proxy, args) ∧
      (o.isCall = true ∧ e.asking proxy o.method args = .error err ∨
        o.isCall = false ∧ e.telling proxy o.method args = .error err) := by
  rw [message] at h
  cases htarget : o.target e with
  | error err' =>
      rw [htarget] at h
      exact Or.inl (congrArg Except.error (Except.error.inj h))
  | ok x =>
      rw [htarget] at h
      refine Or.inr ⟨x.1, x.2, rfl, ?_⟩
      cases hcall : o.isCall <;> simp_all

/-- **What is started is started whole**: its message joins the queue, and a call gets its entry. -/
theorem place_of_ok (h : o.message e = .ok m) :
    o.place now e =
      ((e.grown m, [.queued { message := m }]),
        if o.isCall then .call (newCall now e) else .notice (.ok ())) := by
  obtain ⟨proxy, args, htarget, ⟨hcall, h⟩ | ⟨hcall, h⟩⟩ := message_eq_ok h
  · simp only [place_eq, htarget, hcall, if_true, called_of_ok h]
  · simp only [place_eq, htarget, hcall, if_false, Bool.false_eq_true, noticed_of_ok h]

/-- **What is not started leaves nothing behind** but the number of a call, which is not used
again, and the user is told at once. -/
theorem place_of_error (now : Nat) (h : o.message e = .error err) :
    (∃ n events, (o.place now e).1 = ({ e with nextId := n }, events) ∧ queuedIn events = []) ∧
      (o.place now e).2.error? = some err := by
  rcases message_eq_error h with htarget | ⟨proxy, args, htarget, ⟨hcall, h⟩ | ⟨hcall, h⟩⟩
  · simp only [place_eq, htarget]
    refine ⟨⟨e.nextId, [], rfl, rfl⟩, ?_⟩
    split <;> rfl
  · simp only [place_eq, htarget, hcall, if_true, called_of_error h]
    exact ⟨⟨_, _, rfl, rfl⟩, rfl⟩
  · simp only [place_eq, htarget, hcall, if_false, Bool.false_eq_true, noticed_of_error h]
    exact ⟨⟨e.nextId, [], rfl, rfl⟩, rfl⟩

/-- A user is told of the error that keeps a message back. -/
theorem error?_place (now : Nat) (e : Endpoint η) (o : Opening) :
    (o.place now e).2.error? =
      match o.message e with
      | .error err => some err
      | .ok _ => none := by
  cases h : o.message e with
  | error err => exact (place_of_error now h).2
  | ok m =>
      rw [place_of_ok h]
      dsimp only
      split <;> rfl

/-- What a message that goes out looks like. -/
theorem eq_of_message (h : o.message e = .ok m) :
    (∃ bs, Codec.encodeMessage m = .ok bs) ∧
      ∃ proxy args, o.target e = .ok (proxy, args) ∧
        m = if o.isCall then .request ⟨e.nextId⟩ proxy o.method args
          else .notification proxy o.method args := by
  obtain ⟨proxy, args, htarget, ⟨hcall, h⟩ | ⟨hcall, h⟩⟩ := message_eq_ok h
  · obtain ⟨hr, rfl⟩ := Endpoint.asking_eq_ok h
    exact ⟨(Endpoint.refusal?_eq_none hr).encodes, proxy, args, htarget, (if_pos hcall).symm⟩
  · obtain ⟨-, rfl, hbs⟩ := Endpoint.telling_eq_ok h
    exact ⟨hbs, proxy, args, htarget, (if_neg (Bool.eq_false_iff.mp hcall)).symm⟩

/-- The endpoint keeps a call back exactly if it refuses it, -/
theorem message_eq_error_iff (hcall : o.isCall = true) {x : ProxyId × List Value}
    (htarget : o.target e = .ok x) : o.message e = .error err ↔ e.Refuses x.2 err := by
  have hrefuses : e.refusal? x.1 o.method x.2 = some err ↔ e.Refuses x.2 err :=
    Endpoint.refusal?_eq_some
  rw [← hrefuses, message, htarget]
  dsimp only
  rw [if_pos hcall, Endpoint.asking]
  cases e.refusal? x.1 o.method x.2 <;> simp

/-- and grants it otherwise. -/
theorem message_of_granted (hcall : o.isCall = true) {x : ProxyId × List Value}
    (htarget : o.target e = .ok x) (h : ¬∃ err, e.Refuses x.2 err) :
    o.message e = .ok (.request ⟨e.nextId⟩ x.1 o.method x.2) := by
  cases hm : o.message e with
  | error err => exact absurd ⟨err, (message_eq_error_iff hcall htarget).mp hm⟩ h
  | ok m =>
      obtain ⟨-, proxy, args, htarget', rfl⟩ := eq_of_message hm
      obtain rfl := Except.ok.inj (htarget.symm.trans htarget')
      rw [if_pos hcall]

/-- **A call finds the endpoint full** exactly if at least as many calls wait as may, before anything
is said about its message. -/
theorem full_iff (hopen : e.isOpen = true) (hcall : o.isCall = true) {x : ProxyId × List Value}
    (htarget : o.target e = .ok x) :
    (∃ current max, o.message e = .error (.tooManyInFlight current max)) ↔
      e.config.maxInFlight ≤ e.pendingCount := by
  constructor
  · rintro ⟨current, max, hm⟩
    cases (message_eq_error_iff hcall htarget).mp hm with
    | full _ hfull => exact hfull
  · intro hfull
    exact ⟨_, _, (message_eq_error_iff hcall htarget).mpr (.full hopen hfull)⟩

end Opening

/-! ## Between the steps -/

/-- What others do while a call or a notification is started, if they start nothing themselves. -/
structure Meanwhile where
  /-- They close the endpoint after it has been found open. -/
  early : Bool := false
  /-- They close it when a call has its entry. -/
  late : Bool := false
  /-- They take no more messages from the queue. -/
  gone : Bool := false

/-- Whether the endpoint is closed meanwhile. -/
def Meanwhile.closes (w : Meanwhile) : Bool := w.early || w.late

namespace Endpoint

/-- The endpoint, closed if others close it. -/
def closeIf (b : Bool) (e : Endpoint η) : Step η := if b then e.close else (e, [])

/-- The endpoint with the entry of a call. -/
def enter (e : Endpoint η) (id : RequestId) (proxy : ProxyId) : Endpoint η :=
  { e with pending := e.pending ++ [(id, proxy)] }

/-- Lets a message join the queue, whether or not the endpoint is open. -/
def put (e : Endpoint η) (m : Message) : Step η :=
  ({ e with outbound := e.outbound ++ [{ message := m }] }, [.queued { message := m }])

/-- Gives a call its entry, looks at the endpoint again, and lets the request join the queue. If it
cannot, the entry is taken away again and the call is settled. -/
def enterApart (e : Endpoint η) (w : Meanwhile) (id : RequestId) (proxy : ProxyId) (m : Message) :
    Step η :=
  andThen (andThen (e.closeIf w.early) fun e => (e.enter id proxy).closeIf w.late) fun e =>
    if !e.isOpen || w.gone then e.settle id fun _ => .error .disconnected else e.put m

/-- Calls a method step by step: there are the checks, and then the call gets its entry. -/
def requestApart (e : Endpoint η) (w : Meanwhile) (proxy : ProxyId) (method : String)
    (args : List Value) : RequestId × Step η :=
  let id : RequestId := ⟨e.nextId⟩
  let e' : Endpoint η := { e with nextId := e.nextId + 1 }
  match e.refusal? proxy method args with
  | some err => (id, e', [.settled id (.error err)])
  | none => (id, e'.enterApart w id proxy (.request id proxy method args))

/-- Notifies step by step: there are the checks, and then the message joins the queue. -/
def notifyApart (e : Endpoint η) (w : Meanwhile) (proxy : ProxyId) (method : String)
    (args : List Value) : Step η × Except CallError Unit :=
  match e.telling proxy method args with
  | .error err => ((e, []), .error err)
  | .ok m =>
    if w.gone then (e.closeIf w.closes, .error .disconnected)
    else (andThen (e.closeIf w.closes) fun e => e.put m, .ok ())

variable {e : Endpoint η} {w : Meanwhile} {proxy : ProxyId} {method : String} {args : List Value}

theorem requestApart_id (e : Endpoint η) (w : Meanwhile) (proxy : ProxyId) (method : String)
    (args : List Value) : (e.requestApart w proxy method args).1 = ⟨e.nextId⟩ := by
  rw [requestApart]
  split <;> rfl

/-- If nothing happens meanwhile, the call is made as `request` says. -/
theorem requestApart_alone (e : Endpoint η) (proxy : ProxyId) (method : String)
    (args : List Value) : e.requestApart {} proxy method args = e.request proxy method args := by
  refine Prod.ext ?_ ?_
  · rw [request_id, requestApart_id]
  · rw [requestApart]
    split
    · next err hr => exact (request_of_refusal hr).symm
    · next hr =>
        rw [request_of_none hr]
        simp [enterApart, andThen, closeIf, enter, put, (refusal?_eq_none hr).isOpen]

/-- If nothing happens meanwhile, the notification is sent as `notifyProxy` says. -/
theorem notifyApart_alone (e : Endpoint η) (proxy : ProxyId) (method : String)
    (args : List Value) :
    Opening.noticed e (e.notifyProxy proxy method args) =
      ((e.notifyApart {} proxy method args).1, .notice (e.notifyApart {} proxy method args).2) := by
  rw [notifyProxy_of_telling, notifyApart]
  cases h : e.telling proxy method args with
  | error err => rfl
  | ok m =>
      obtain ⟨hopen, -, -⟩ := telling_eq_ok h
      simp [Except.map, Opening.noticed, enqueue, hopen, andThen, closeIf, Meanwhile.closes, put]

/-- What an interrupted call leaves: the endpoint is closed, if others have closed it, and otherwise
as it was, and the call is settled. -/
structure Interrupted (e : Endpoint η) (w : Meanwhile) (id : RequestId) (s : Step η) : Prop where
  endpoint : s.1 = (e.closeIf w.closes).1
  told : resultFor? s.2 id = some (.error .disconnected)
  queued : queuedIn s.2 = []

variable {id : RequestId}

/-- Closing has nothing to do with numbers. -/
theorem closeIf_numbered (b : Bool) (e : Endpoint η) (n : UInt64) :
    (({ e with nextId := n } : Endpoint η).closeIf b).1 =
      { (e.closeIf b).1 with nextId := n } := by
  cases b with
  | false => rfl
  | true =>
      show (close _).1 = { (close e).1 with nextId := n }
      unfold close
      by_cases hopen : e.isOpen = true
      · simp only [hopen, if_true]
      · simp only [hopen, if_false, Bool.false_eq_true]

theorem isOpen_closeIf (b : Bool) (e : Endpoint η) :
    (e.closeIf b).1.isOpen = (e.isOpen && !b) := by
  cases b with
  | true => rw [closeIf, if_pos rfl, isOpen_close, Bool.not_true, Bool.and_false]
  | false => rw [closeIf, if_neg Bool.false_ne_true, Bool.not_false, Bool.and_true]

theorem queuedIn_closeIf (b : Bool) (e : Endpoint η) : queuedIn (e.closeIf b).2 = [] := by
  cases b with
  | false => rfl
  | true => exact queuedIn_close e

theorem isOpen_enter (e : Endpoint η) (id : RequestId) (proxy : ProxyId) :
    (e.enter id proxy).isOpen = e.isOpen := rfl

/-- Who takes away an entry that has just been made leaves nothing behind. -/
theorem settle_enter (hfresh : id ∉ e.waiting) (r : ProxyId → CallResult) :
    (e.enter id proxy).settle id r = (e, [.settled id (r proxy)]) := by
  have hne : ∀ p ∈ e.pending, p.1 ≠ id := fun p hp hid =>
    hfresh (hid ▸ List.mem_map_of_mem hp)
  refine Prod.ext ?_ ?_
  · have hkeep : (e.pending ++ [(id, proxy)]).filter (fun p => p.1 ≠ id) = e.pending := by
      rw [List.filter_append, List.filter_eq_self.mpr fun p hp => decide_eq_true (hne p hp)]
      simp
    rw [settle_fst, enter, hkeep]
  · have hnone : e.pending.find? (fun p => p.1 = id) = none :=
      List.find?_eq_none.mpr fun p hp => by simpa using hne p hp
    rw [settle_snd]
    simp [enter, hnone]

/-- Others close the endpoint before the call has its entry. They do not see the entry, and the call
itself takes it away. -/
theorem interrupted_early (hopen : e.isOpen = true) (late gone : Bool) :
    e.Interrupted ⟨true, late, gone⟩ id
      (andThen (andThen e.close fun e => (e.enter id proxy).closeIf late) fun e =>
        e.settle id fun _ => .error .disconnected) := by
  have hclosed : (e.close.1.enter id proxy).closeIf late = (e.close.1.enter id proxy, []) := by
    cases late with
    | true => exact close_of_closed (isOpen_close e)
    | false => rfl
  have hempty : e.close.1.pending = [] := by rw [close_fst_of_open hopen]
  have hfresh : id ∉ e.close.1.waiting := by
    rw [waiting, hempty]
    exact List.not_mem_nil
  have hends : andThen (andThen e.close fun e => (e.enter id proxy).closeIf late) (fun e =>
      e.settle id fun _ => .error .disconnected) =
      (e.close.1, e.close.2 ++ [] ++ [.settled id (.error .disconnected)]) := by
    simp only [andThen, hclosed, settle_enter hfresh]
  rw [hends]
  refine ⟨rfl, ?_, ?_⟩
  · -- closing says nothing of the call unless one with its id has waited, and then the same
    rw [resultFor?_append, resultFor?_append, resultFor?_close hopen]
    split <;> simp [resultFor?, Event.settles?]
  · rw [queuedIn_append, queuedIn_append, queuedIn_close]
    rfl

/-- Others close the endpoint when the call has its entry. They settle the call with all others. -/
theorem interrupted_late (hopen : e.isOpen = true) (gone : Bool) :
    e.Interrupted ⟨false, true, gone⟩ id
      (andThen (e.enter id proxy).close fun e => e.settle id fun _ => .error .disconnected) := by
  have hopen' : (e.enter id proxy).isOpen = true := hopen
  have hwaits : id ∈ (e.enter id proxy).waiting := by simp [waiting, enter]
  have hsame : (e.enter id proxy).close.1 = e.close.1 := by
    rw [close_fst_of_open hopen', close_fst_of_open hopen]
    rfl
  have hempty : e.close.1.pending = [] := by rw [close_fst_of_open hopen]
  have hsettle : e.close.1.settle id (fun _ => .error .disconnected) = (e.close.1, []) := by
    rw [settle, hempty]
    rfl
  have hends : andThen (e.enter id proxy).close (fun e =>
      e.settle id fun _ => .error .disconnected) =
      (e.close.1, (e.enter id proxy).close.2 ++ []) := by
    simp only [andThen, hsame, hsettle]
  rw [hends, List.append_nil]
  refine ⟨rfl, ?_, queuedIn_close _⟩
  rw [resultFor?_close hopen', if_pos hwaits]

/-- Nobody closes the endpoint, but nobody takes messages from the queue any more. -/
theorem interrupted_gone (hfresh : id ∉ e.waiting) :
    e.Interrupted ⟨false, false, true⟩ id
      ((e.enter id proxy).settle id fun _ => .error .disconnected) := by
  rw [settle_enter hfresh]
  exact ⟨rfl, by simp [resultFor?, Event.settles?], rfl⟩

/-- **A call that is interrupted leaves nothing behind**, although it may have had its entry. -/
theorem interrupted_enterApart (hopen : e.isOpen = true) (hfresh : id ∉ e.waiting)
    (hw : (w.closes || w.gone) = true) (m : Message) :
    e.Interrupted w id (e.enterApart w id proxy m) := by
  obtain ⟨early, late, gone⟩ := w
  -- the second look finds the endpoint closed, or the queue does not take the request
  have hlast : e.enterApart ⟨early, late, gone⟩ id proxy m =
      andThen (andThen (e.closeIf early) fun e => (e.enter id proxy).closeIf late) fun e =>
        e.settle id fun _ => .error .disconnected := by
    have hstate : (!((((e.closeIf early).1.enter id proxy).closeIf late).1.isOpen) || gone) =
        true := by
      rw [isOpen_closeIf, isOpen_enter, isOpen_closeIf, hopen]
      cases early
      · cases late
        · exact hw
        · rfl
      · rfl
    simp only [enterApart, andThen, hstate, if_true]
  rw [hlast]
  cases early with
  | true => exact interrupted_early hopen late gone
  | false =>
      cases late with
      | true => exact interrupted_late hopen gone
      | false =>
          obtain rfl : gone = true := hw
          exact interrupted_gone hfresh

theorem interrupted_requestApart (hr : e.refusal? proxy method args = none)
    (hfresh : (⟨e.nextId⟩ : RequestId) ∉ e.waiting) (hw : (w.closes || w.gone) = true) :
    ({ e with nextId := e.nextId + 1 } : Endpoint η).Interrupted w ⟨e.nextId⟩
      (e.requestApart w proxy method args).2 := by
  have hopen : e.isOpen = true := (refusal?_eq_none hr).isOpen
  simp only [requestApart, hr]
  refine interrupted_enterApart ?_ ?_ hw _
  · exact hopen
  · exact hfresh

end Endpoint

namespace Opening

/-- Starts a call or a notification step by step. -/
def placeApart (now : Nat) (e : Endpoint η) (w : Meanwhile) (o : Opening) :
    Endpoint.Step η × Receipt :=
  match o.target e with
  | .error err => ((e, []), if o.isCall then .call (.failed err) else .notice (.error err))
  | .ok (proxy, args) =>
    if o.isCall then called now e (.ok (e.requestApart w proxy o.method args))
    else
      let x := e.notifyApart w proxy o.method args
      (x.1, .notice x.2)

/-- Whether others stop the start. A notification does not look at the endpoint again. -/
def stops (w : Meanwhile) (o : Opening) : Bool := w.gone || (o.isCall && w.closes)

variable {now : Nat} {e : Endpoint η} {o : Opening} {m : Message} {err : CallError}
variable {w : Meanwhile}

/-- If nothing happens meanwhile, the steps together are `place`. -/
theorem placeApart_alone (now : Nat) (e : Endpoint η) (o : Opening) :
    o.placeApart now e {} = o.place now e := by
  rw [place_eq, placeApart]
  cases o.target e with
  | error err => rfl
  | ok x =>
      dsimp only
      rw [Endpoint.requestApart_alone, Endpoint.notifyApart_alone]

/-- What the checks refuse is refused whether or not others close the endpoint. -/
theorem placeApart_of_error (h : o.message e = .error err) :
    o.placeApart now e w = o.place now e := by
  rw [← placeApart_alone]
  rcases message_eq_error h with htarget | ⟨proxy, args, htarget, ⟨hcall, h⟩ | ⟨hcall, h⟩⟩
  · simp only [placeApart, htarget]
  · simp only [placeApart, htarget, hcall, if_true, Endpoint.requestApart,
      Endpoint.asking_eq_error h]
  · simp only [placeApart, htarget, hcall, if_false, Bool.false_eq_true, Endpoint.notifyApart, h]

/-! ## Whole or not at all -/

/-- What is started: a message has joined the queue, and a call has its entry. `e` is the endpoint
where it began, and `b` what others have made of it. -/
structure Starts (o : Opening) (e b : Endpoint η) (m : Message) (x : Endpoint.Step η × Receipt) :
    Prop where
  endpoint : x.1.1 = b.grown m
  queued : queuedIn x.1.2 = [{ message := m }]
  told : x.2.error? = none
  encoded : ∃ bs, Codec.encodeMessage m = .ok bs
  meant : ∃ proxy args, o.target e = .ok (proxy, args) ∧
    m = if o.isCall then .request ⟨e.nextId⟩ proxy o.method args
      else .notification proxy o.method args

/-- What is not started: only a number is used up, no message has joined the queue, and the user is
told; the first look at a call, whenever it comes, returns the error. -/
structure Fails (err : CallError) (b : Endpoint η) (x : Endpoint.Step η × Receipt) : Prop where
  endpoint : ∃ n, x.1.1 = { b with nextId := n }
  queued : queuedIn x.1.2 = []
  told : x.2.error? = some err
  atOnce : ∀ c, x.2 = .call c → ∀ (now : Nat) (e : Endpoint η),
    c.poll now e = (some (.error err), { c with settled := true }, (e, []))

/-- All or nothing. -/
def Whole (now : Nat) (e : Endpoint η) (w : Meanwhile) (o : Opening) : Prop :=
  match o.message e with
  | .error err => Fails err e (o.placeApart now e w)
  | .ok m =>
    if o.stops w then Fails .disconnected (e.closeIf w.closes).1 (o.placeApart now e w)
    else o.Starts e (e.closeIf w.closes).1 m (o.placeApart now e w)

theorem error?_call {c : Call} :
    (Receipt.call c).error? = some err ↔ c.delivered = some (.error err) := by
  rw [Receipt.error?]
  constructor
  · intro h
    split at h
    · next hd => rw [hd, Option.some.inj h]
    · cases h
  · intro h
    rw [h]

/-- Who is told of an error has it at the first look. -/
theorem poll_of_error? {c : Call} (h : (Receipt.call c).error? = some err) (now : Nat)
    (e : Endpoint η) :
    c.poll now e = (some (.error err), { c with settled := true }, (e, [])) := by
  rw [Call.poll, error?_call.mp h]

theorem Fails.of_told {b : Endpoint η} {x : Endpoint.Step η × Receipt}
    (endpoint : ∃ n, x.1.1 = { b with nextId := n }) (queued : queuedIn x.1.2 = [])
    (told : x.2.error? = some err) : Fails err b x where
  endpoint := endpoint
  queued := queued
  told := told
  atOnce := fun _ hc now e => poll_of_error? (hc ▸ told) now e

theorem called_fst (now : Nat) (e : Endpoint η) (x : RequestId × Endpoint.Step η) :
    (called now e (.ok x)).1 = x.2 := rfl

/-- A call that is refused while it is made is told of it at once. -/
theorem error?_called {x : RequestId × Endpoint.Step η}
    (hx : resultFor? x.2.2 x.1 = some (.error err)) :
    (called now e (.ok x)).2.error? = some err := by
  have hd : (x.2.2.foldl Call.hear
      ({ id := some x.1, limit := e.config.requestTimeout, started := now } : Call)).delivered =
        some (.error err) := by
    rw [Call.delivered_hears]
    exact hx
  show Receipt.error? (.call _) = _
  rw [Receipt.error?, hd]

/-- Others stop the start after the checks. -/
theorem fails_of_stops (h : o.message e = .ok m)
    (hfresh : (⟨e.nextId⟩ : RequestId) ∉ e.waiting) (hw : o.stops w = true) :
    Fails .disconnected (e.closeIf w.closes).1 (o.placeApart now e w) := by
  obtain ⟨proxy, args, htarget, ⟨hcall, h⟩ | ⟨hcall, h⟩⟩ := message_eq_ok h
  · obtain ⟨hr, -⟩ := Endpoint.asking_eq_ok h
    have hw' : (w.closes || w.gone) = true := by
      rw [stops, hcall, Bool.true_and, Bool.or_comm] at hw
      exact hw
    have hleft := Endpoint.interrupted_requestApart hr hfresh hw'
    have htold := hleft.told
    rw [← Endpoint.requestApart_id e w proxy o.method args] at htold
    simp only [placeApart, htarget, hcall, if_true]
    refine .of_told ⟨e.nextId + 1, ?_⟩ hleft.queued (error?_called htold)
    rw [called_fst, hleft.endpoint, Endpoint.closeIf_numbered]
  · have hgone : w.gone = true := by
      rw [stops, hcall, Bool.false_and, Bool.or_false] at hw
      exact hw
    simp only [placeApart, htarget, hcall, if_false, Bool.false_eq_true, Endpoint.notifyApart, h,
      hgone, if_true]
    exact .of_told ⟨(e.closeIf w.closes).1.nextId, rfl⟩ (Endpoint.queuedIn_closeIf ..) rfl

/-- Nobody stops the start. A call finds the endpoint as the checks have left it; a notification
joins the queue of whatever endpoint it finds. -/
theorem starts_of_runs (h : o.message e = .ok m) (hw : o.stops w = false) :
    o.Starts e (e.closeIf w.closes).1 m (o.placeApart now e w) := by
  obtain ⟨hencoded, hmeant⟩ := eq_of_message h
  obtain ⟨hgone, hcloses⟩ := Bool.or_eq_false_iff.mp hw
  obtain ⟨proxy, args, htarget, ⟨hcall, h'⟩ | ⟨hcall, h'⟩⟩ := message_eq_ok h
  · -- a call that runs has been left alone
    obtain rfl : w = {} := by
      obtain ⟨early, late, gone⟩ := w
      rw [hcall, Bool.true_and] at hcloses
      obtain ⟨rfl, rfl⟩ := Bool.or_eq_false_iff.mp hcloses
      obtain rfl : gone = false := hgone
      rfl
    rw [placeApart_alone, place_of_ok h, if_pos hcall]
    exact ⟨rfl, rfl, rfl, hencoded, hmeant⟩
  · obtain ⟨-, rfl, -⟩ := Endpoint.telling_eq_ok h'
    simp only [placeApart, htarget, hcall, if_false, Bool.false_eq_true, Endpoint.notifyApart, h',
      hgone]
    refine ⟨?endpoint, ?queued, rfl, hencoded, hmeant⟩
    case endpoint => simp [Endpoint.andThen, Endpoint.put, Endpoint.grown, Message.entry?]
    case queued =>
      show queuedIn ((e.closeIf w.closes).2 ++ _) = _
      rw [queuedIn_append, Endpoint.queuedIn_closeIf]
      rfl

theorem fails_of_error (h : o.message e = .error err) : Fails err e (o.placeApart now e w) := by
  rw [placeApart_of_error h]
  obtain ⟨⟨n, events, hplace, hqueued⟩, htold⟩ := place_of_error now h
  refine .of_told ⟨n, ?_⟩ ?_ htold
  · rw [hplace]
  · rw [hplace]
    exact hqueued

/-- **A call or a notification is started whole or not at all**, whether or not others close the
endpoint meanwhile or take no more messages from its queue. -/
theorem whole (hfresh : (⟨e.nextId⟩ : RequestId) ∉ e.waiting) (now : Nat) (w : Meanwhile)
    (o : Opening) : o.Whole now e w := by
  rw [Whole]
  split
  · next err h => exact fails_of_error h
  · next m h =>
      split
      · next hw => exact fails_of_stops h hfresh hw
      · next hw => exact starts_of_runs h (Bool.eq_false_iff.mpr hw)

end Opening

end PeerRpc
