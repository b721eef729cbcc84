import PeerRpc.Proofs.Endpoint.Answers
import PeerRpc.Proofs.Endpoint.Regular

/-!
# PeerRpc.Proofs.Endpoint.Traffic -- what each operation sends and what it does to runs

For each operation there is one equation for the messages that it queues and one for the runs that
it leaves. Runs begin in `start`, end in `finish`, and are otherwise only told to stop
(`Run.tell`).
-/

namespace PeerRpc

variable {η : Type}

/-- The run, told to stop if the condition holds. -/
def Run.tell (b : Bool) (r : Run η) : Run η := { r with fired := r.fired || b }

@[simp] theorem Run.tell_false (r : Run η) : r.tell false = r := by
  obtain ⟨serial, request, proxy, method, args, handler, abortable, fired⟩ := r
  simp [Run.tell]

theorem Run.tell_true (r : Run η) : r.tell true = { r with fired := true } := by
  simp [Run.tell]

theorem Run.tell_tell (r : Run η) (b b' : Bool) : (r.tell b).tell b' = r.tell (b || b') := by
  simp [Run.tell, Bool.or_assoc]

@[simp] theorem Run.serial_tell (b : Bool) (r : Run η) : (r.tell b).serial = r.serial := rfl

@[simp] theorem Run.request_tell (b : Bool) (r : Run η) : (r.tell b).request = r.request := rfl

/-- The request that a message answers, unless the message stands in for a refused answer. -/
def Outbound.answers? (o : Outbound) : Option RequestId :=
  if o.lastResort then none
  else
    match o.message with
    | .reply id _ => some id
    | .replyErr id _ => some id
    | _ => none

/-- An answer answers its request. -/
@[simp] theorem Outbound.answers?_answer (id : RequestId) (reply : Except RemoteError Value) :
    ({ message := Endpoint.answer id reply } : Outbound).answers? = some id := by
  rw [Endpoint.answer_eq]
  split
  · cases reply <;> rfl
  · rfl

namespace Endpoint

/-! ## Messages -/

theorem queuedIn_enqueue (e : Endpoint η) (o : Outbound) :
    queuedIn (e.enqueue o).2 = if e.isOpen then [o] else [] := by
  rw [enqueue_snd]
  split <;> rfl

@[simp] theorem queuedIn_settle (e : Endpoint η) (id : RequestId) (r : ProxyId → CallResult) :
    queuedIn (e.settle id r).2 = [] := by
  rw [settle_snd]
  cases e.pending.find? fun p => p.1 = id <;> rfl

@[simp] theorem queuedIn_fire (e : Endpoint η) (serial : Nat) :
    queuedIn (e.fire serial).2 = [] := by
  rcases fire_snd e serial with h | h <;> rw [h] <;> rfl

/-- The other side is told of a cancelled call, if it waited. -/
theorem queuedIn_cancelRequest (e : Endpoint η) (id : RequestId) (reason : CallError) :
    queuedIn (e.cancelRequest id reason).2.2 =
      if id ∈ e.waiting ∧ e.isOpen = true then [{ message := .cancel id }] else [] := by
  by_cases h : id ∈ e.waiting
  · rw [cancelRequest_of_waiting h]
    show queuedIn ((e.settle id fun _ => .error reason).2 ++
      ((e.settle id fun _ => .error reason).1.enqueue { message := .cancel id }).2) = _
    rw [queuedIn_append, queuedIn_settle, queuedIn_enqueue, settle_fst, List.nil_append]
    simp only [h, true_and]
  · rw [cancelRequest_of_not_waiting h, if_neg fun hand => h hand.1]
    rfl

theorem queuedIn_request (e : Endpoint η) (proxy : ProxyId) (method : String)
    (args : List Value) :
    queuedIn (e.request proxy method args).2.2 =
      if (e.refusal? proxy method args).isNone then
        [{ message := .request ⟨e.nextId⟩ proxy method args }]
      else [] := by
  cases hr : e.refusal? proxy method args with
  | some err => rw [request_of_refusal hr]; rfl
  | none => rw [request_of_none hr]; rfl

/-- A run that answers a request is answered when it ends. -/
theorem queuedIn_finish (e : Endpoint η) (serial : Nat) (o : Outcome) :
    queuedIn (e.finish serial o).2 =
      match (e.run? serial).bind Run.request with
      | some id => if e.isOpen then [{ message := answer id o.toReply }] else []
      | none => [] := by
  cases hr : e.run? serial with
  | none => rw [finish_of_none hr]; rfl
  | some r =>
      cases hid : r.request with
      | none =>
          rw [finish_of_notification hr hid]
          simp only [Option.bind_some, hid]
          rfl
      | some id =>
          rw [finish_of_request hr hid, sendReply, queuedIn_enqueue]
          simp only [Option.bind_some, hid]

/-- Only a request for a service that is not there is answered as soon as it arrives. -/
theorem queuedIn_dispatch [Handler η] (e : Endpoint η) (m : Message) :
    queuedIn (e.dispatch m).2 =
      match m with
      | .request id proxy _ _ =>
        if (e.runFor? id).isNone ∧ (e.registry.get? proxy).isNone ∧ e.isOpen then
          [{ message := answer id (.error (.noSuchProxy proxy)) }]
        else []
      | _ => [] := by
  cases m with
  | request id proxy method args =>
      simp only [dispatch]
      cases e.runFor? id with
      | some r => simp [queuedIn]
      | none =>
          cases e.registry.get? proxy with
          -- a service that is hosted answers when its run ends
          | some h => simp [start_eq, queuedIn, Event.queued?]
          | none =>
              show queuedIn (e.enqueue _).2 = _
              rw [queuedIn_enqueue]
              simp
  | notification proxy method args =>
      simp only [dispatch]
      split <;> rfl
  | reply id v => exact queuedIn_settle e id _
  | replyErr id err => exact queuedIn_settle e id _
  | cancel id =>
      simp only [dispatch]
      split
      · rfl
      · exact queuedIn_fire e _

/-- The error that tells a caller that its answer was refused. -/
def undelivered (err : TransportError) : RemoteError :=
  ⟨.handlerFailed, "Reply could not be delivered: " ++ err.text, none⟩

/-- A refused answer is replaced, unless it is a replacement itself. -/
theorem queuedIn_undeliverable (e : Endpoint η) (o : Outbound) (err : TransportError) :
    queuedIn (e.undeliverable o err).2 =
      match o.answers? with
      | some id =>
        if e.isOpen then [{ message := .replyErr id (undelivered err), lastResort := true }] else []
      | none => [] := by
  obtain ⟨m, lastResort⟩ := o
  cases lastResort with
  | true =>
      -- a last resort is not replaced again
      cases m with
      | request id proxy method args => exact queuedIn_settle e id _
      | _ => rfl
  | false =>
      cases m with
      | request id proxy method args => exact queuedIn_settle e id _
      | reply id v => exact queuedIn_enqueue e _
      | replyErr id err => exact queuedIn_enqueue e _
      | _ => rfl

/-! ## Runs -/

/-- The runs of an endpoint and the number of the next one. -/
def work (e : Endpoint η) : List (Run η) × Nat := (e.runs, e.nextRun)

/-- A step that has nothing to do with runs. -/
structure Calm (e : Endpoint η) (s : Step η) : Prop where
  work : s.1.work = e.work
  started : startedIn s.2 = []

theorem Calm.refl (e : Endpoint η) : Calm e (e, []) := ⟨rfl, rfl⟩

theorem Calm.andThen {e : Endpoint η} {s : Step η} {f : Endpoint η → Step η}
    (hs : Calm e s) (hf : Calm s.1 (f s.1)) : Calm e (Endpoint.andThen s f) where
  work := hf.work.trans hs.work
  started := by
    show startedIn (s.2 ++ (f s.1).2) = []
    rw [startedIn_append, hs.started, hf.started, List.nil_append]

theorem calm_enqueue (e : Endpoint η) (o : Outbound) : Calm e (e.enqueue o) where
  work := by
    rw [enqueue_fst]
    rfl
  started := by
    rw [enqueue_snd]
    split <;> rfl

theorem calm_settle (e : Endpoint η) (id : RequestId) (r : ProxyId → CallResult) :
    Calm e (e.settle id r) where
  work := by
    rw [settle_fst]
    rfl
  started := by
    rw [settle_snd]
    cases e.pending.find? fun p => p.1 = id <;> rfl

theorem calm_cancelRequest (e : Endpoint η) (id : RequestId) (reason : CallError) :
    Calm e (e.cancelRequest id reason).2 := by
  by_cases h : id ∈ e.waiting
  · rw [cancelRequest_of_waiting h]
    exact (calm_settle e id _).andThen (calm_enqueue _ _)
  · rw [cancelRequest_of_not_waiting h]
    exact .refl e

theorem calm_request (e : Endpoint η) (proxy : ProxyId) (method : String) (args : List Value) :
    Calm e (e.request proxy method args).2 := by
  cases hr : e.refusal? proxy method args with
  | some err =>
      rw [request_of_refusal hr]
      exact ⟨rfl, rfl⟩
  | none =>
      rw [request_of_none hr]
      exact ⟨rfl, rfl⟩

theorem calm_notifyProxy {e : Endpoint η} {proxy : ProxyId} {method : String}
    {args : List Value} {s : Step η} (h : e.notifyProxy proxy method args = .ok s) :
    Calm e s := by
  obtain ⟨-, rfl⟩ := notifyProxy_eq_ok h
  exact calm_enqueue e _

theorem calm_undeliverable (e : Endpoint η) (o : Outbound) (err : TransportError) :
    Calm e (e.undeliverable o err) := by
  rcases e.undeliverable_cases o err with heq | ⟨id, r, heq⟩ | ⟨o', heq⟩
  · exact heq ▸ .refl e
  · exact heq ▸ calm_settle e id r
  · exact heq ▸ calm_enqueue e o'

theorem runs_fire (e : Endpoint η) (serial : Nat) :
    (e.fire serial).1.runs = e.runs.map fun r => r.tell (r.serial = serial) := by
  rw [fire_fst]
  refine List.map_congr_left fun r _ => ?_
  by_cases h : r.serial = serial
  · rw [if_pos h, decide_eq_true h, Run.tell_true]
  · rw [if_neg h, decide_eq_false h, Run.tell_false]

@[simp] theorem startedIn_fire (e : Endpoint η) (serial : Nat) :
    startedIn (e.fire serial).2 = [] := by
  rcases fire_snd e serial with h | h <;> rw [h] <;> rfl

/-- Closing an open endpoint tells every run to stop. -/
theorem runs_close (e : Endpoint η) :
    e.close.1.runs = e.runs.map fun r => r.tell e.isOpen := by
  cases h : e.isOpen with
  | true =>
      rw [close_fst_of_open h]
      exact List.map_congr_left fun r _ => r.tell_true.symm
  | false =>
      rw [close_of_closed h]
      simp

@[simp] theorem nextRun_close (e : Endpoint η) : e.close.1.nextRun = e.nextRun := by
  cases h : e.isOpen with
  | true => rw [close_fst_of_open h]
  | false => rw [close_of_closed h]

@[simp] theorem startedIn_close (e : Endpoint η) : startedIn e.close.2 = [] := by
  cases h : e.isOpen with
  | false => rw [close_of_closed h]; rfl
  | true =>
      rw [close_snd_of_open h]
      have hpending : startedIn (e.pending.map
          (fun p => Event.settled p.1 (.error .disconnected)) : List (Event η)) = [] := by
        simp [startedIn, Event.started?]
      have hruns : startedIn ((e.runs.filter fun r => !r.fired).reverse.map
          (fun r => Event.fired r.serial) : List (Event η)) = [] := by
        simp [startedIn, Event.started?]
      simp only [startedIn_append, hpending, hruns]
      rfl

/-- A run leaves when it ends, and at no other time. -/
theorem work_finish (e : Endpoint η) (serial : Nat) (o : Outcome) :
    (e.finish serial o).1.work =
      (e.runs.filter (fun r => r.serial ≠ serial), e.nextRun) := by
  rcases e.finish_cases serial o with heq | ⟨id, heq⟩
  · rw [heq]
    rfl
  · rw [heq]
    exact (calm_enqueue _ _).work

@[simp] theorem startedIn_finish (e : Endpoint η) (serial : Nat) (o : Outcome) :
    startedIn (e.finish serial o).2 = [] := by
  rcases e.finish_cases serial o with heq | ⟨id, heq⟩
  · rw [heq]
    rfl
  · rw [heq]
    exact (calm_enqueue _ _).started

end Endpoint

namespace Call

variable {e : Endpoint η}

open Endpoint

theorem calm_cancelWith (c : Call) (reason : CallError) (e : Endpoint η) :
    Calm e (c.cancelWith reason e).2 := by
  unfold cancelWith
  split
  · exact .refl e
  · exact calm_cancelRequest e _ _

theorem calm_drop (c : Call) (e : Endpoint η) : Calm e (c.drop e) := by
  unfold Call.drop
  split
  · exact .refl e
  · exact c.calm_cancelWith _ e

theorem calm_poll (c : Call) (now : Nat) (e : Endpoint η) : Calm e (c.poll now e).2.2 := by
  cases c.polled now e with
  | delivered r hd poll => exact poll ▸ .refl e
  | late d hn limit late poll => exact poll ▸ c.calm_cancelWith _ e
  | early hn poll => exact poll ▸ .refl e

end Call

end PeerRpc
