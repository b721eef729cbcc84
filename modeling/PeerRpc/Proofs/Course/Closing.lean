import PeerRpc.Proofs.Course.Basic
import PeerRpc.Proofs.Endpoint.Results
import PeerRpc.Service

/-!
# PeerRpc.Proofs.Course.Closing -- an endpoint is closed once, and then it is over

An endpoint that closes settles its calls and fires the signals of its runs in the same step, so a
closed endpoint is `Over`: nothing waits, and nothing runs that has not been told to stop. At an
endpoint that is over all deeds but three do nothing, and these three concern neither the channel
nor any call (`Deed.step_of_over`): a new call is settled at once, services may be exchanged, and
runs may end. Hence a course that is over stays so, whatever the channel and the queue still hold
(`Course.ceased_run`).
-/

namespace PeerRpc

variable {η : Type}

/-- Whoever holds the call with this id and has no result learns from the events that the endpoint
is closed. -/
def Disconnects (events : List (Event η)) (id : RequestId) : Prop :=
  ∀ call : Call, call.id = some id → call.delivered = none →
    (events.foldl Call.hear call).delivered = some (.error .disconnected)

theorem disconnects_of_resultFor? {events : List (Event η)} {id : RequestId}
    (h : resultFor? events id = some (.error .disconnected)) : Disconnects events id := by
  intro call hid hnone
  rw [call.delivered_hears, hid, hnone]
  exact h

namespace Endpoint

/-- The endpoint is closed, no call waits, and every run has been told to stop. -/
structure Over (e : Endpoint η) : Prop where
  isOpen : e.isOpen = false
  pending : e.pending = []
  fired : ∀ r ∈ e.runs, r.fired = true

/-! ## Operations of a closed endpoint -/

section Closed

variable {e : Endpoint η} (h : e.isOpen = false)

include h

theorem request_of_closed (proxy : ProxyId) (method : String) (args : List Value) :
    (e.request proxy method args).2 =
      ({ e with nextId := e.nextId + 1 }, [.settled ⟨e.nextId⟩ (.error .disconnected)]) := by
  apply request_of_refusal
  exact refusal?_eq_some.mpr (.closed h)

theorem notifyProxy_of_closed (proxy : ProxyId) (method : String) (args : List Value) :
    e.notifyProxy proxy method args = .error .disconnected := by
  unfold notifyProxy
  rw [h]
  rfl

theorem enqueue_of_closed (o : Outbound) : e.enqueue o = (e, []) := by
  unfold enqueue
  rw [h]
  rfl

theorem dequeue_of_closed : e.dequeue = none := by
  unfold dequeue
  rw [h]

/-- A run that ends after its endpoint has closed is not answered. -/
theorem finish_of_closed (serial : Nat) (o : Outcome) :
    e.finish serial o = ({ e with runs := e.runs.filter fun r => r.serial ≠ serial }, []) := by
  rcases e.finish_cases serial o with heq | ⟨id, heq⟩
  · exact heq
  · rw [heq]
    refine enqueue_of_closed ?_ _
    exact h

end Closed

/-- A call that does not wait is not settled. -/
theorem settle_of_not_waiting {e : Endpoint η} {id : RequestId} (h : id ∉ e.waiting)
    (r : ProxyId → CallResult) : e.settle id r = (e, []) := by
  have hfind : e.pending.find? (fun p => p.1 = id) = none := by
    rw [← Option.not_isSome_iff_eq_none, find?_pending_isSome]
    exact h
  unfold settle
  rw [hfind]

/-- Closing leaves nothing to be done. -/
theorem over_close {e : Endpoint η} (h : e.isOpen = true) : e.close.1.Over := by
  rw [close_fst_of_open h]
  refine ⟨rfl, rfl, ?_⟩
  intro r hr
  obtain ⟨r', -, rfl⟩ := List.mem_map.mp hr
  rfl

namespace Over

variable {e : Endpoint η} (h : e.Over)

include h

theorem not_waiting (id : RequestId) : id ∉ e.waiting := by
  rw [waiting, h.pending]
  exact List.not_mem_nil

theorem fire_eq (serial : Nat) : e.fire serial = (e, []) := by
  unfold fire
  refine if_neg ?_
  rw [List.any_eq_true]
  rintro ⟨r, hr, hserial⟩
  rw [h.fired r hr] at hserial
  simp at hserial

theorem undeliverable_eq (o : Outbound) (err : TransportError) :
    e.undeliverable o err = (e, []) := by
  rcases e.undeliverable_cases o err with heq | ⟨id, r, heq⟩ | ⟨o', heq⟩
  · exact heq
  · exact heq.trans (settle_of_not_waiting (h.not_waiting id) r)
  · exact heq.trans (enqueue_of_closed h.isOpen o')

/-- A call of a service of the other side is settled as soon as it is made. -/
theorem invoke_eq {i : Identifier} (hside : i.side ≠ e.side) (method : String)
    (args : List Value) :
    ∃ s, e.invoke i method args = .ok (⟨e.nextId⟩, s) ∧
      s.2 = [.settled ⟨e.nextId⟩ (.error .disconnected)] ∧ s.1.pending = [] := by
  have hproxy : e.proxyFor i = .ok i.id := if_neg hside
  refine ⟨(e.request i.id method args).2, ?_, ?_, ?_⟩
  · rw [invoke, hproxy, ← request_id e i.id method args]
    rfl
  · rw [request_of_closed h.isOpen]
  · rw [request_of_closed h.isOpen]
    exact h.pending

/-- A notification to a service of the other side is refused. -/
theorem notify_eq {i : Identifier} (hside : i.side ≠ e.side) (method : String)
    (args : List Value) : e.notify i method args = .error .disconnected := by
  have hproxy : e.proxyFor i = .ok i.id := if_neg hside
  rw [notify, hproxy]
  exact notifyProxy_of_closed h.isOpen i.id method args

end Over

end Endpoint

/-! ## Deeds at an endpoint that is over -/

namespace Deed

variable {e : Endpoint η} (h : e.Over)

include h

theorem hands?_of_over (d : Deed η) : d.hands? e = none := by
  cases d with
  | hand => exact congrArg (Option.map Prod.fst) (Endpoint.dequeue_of_closed h.isOpen)
  | _ => rfl

theorem accepts?_of_over (d : Deed η) : d.accepts? e = none := by
  unfold accepts?
  split
  · exact if_neg (by rw [h.isOpen]; decide)
  · rfl

variable [Handler η]

/-- **What can be done at an endpoint that is over.** Nothing is, but for calls that are settled at
once, services that are exchanged and runs that end. -/
theorem step_of_over (d : Deed η) :
    d.step e = (e, []) ∨
      d.step e =
        ({ e with nextId := e.nextId + 1 }, [.settled ⟨e.nextId⟩ (.error .disconnected)]) ∨
      (∃ registry, d.step e = ({ e with registry := registry }, [])) ∨
      ∃ serial, d.step e = ({ e with runs := e.runs.filter fun r => r.serial ≠ serial }, []) := by
  have hnot : ¬ e.isOpen = true := by
    rw [h.isOpen]
    exact Bool.false_ne_true
  -- reader, writer and sender look first whether the endpoint is open; the others find nothing to do
  cases d with
  | request proxy method args =>
      exact .inr (.inl (Endpoint.request_of_closed h.isOpen proxy method args))
  | notify proxy method args =>
      refine .inl ?_
      simp only [step, Endpoint.notifyProxy_of_closed h.isOpen]
  | cancel id reason => exact .inl (Endpoint.cancelRequest_of_not_waiting (h.not_waiting id) reason)
  | serve registry => exact .inr (.inr (.inl ⟨registry, rfl⟩))
  | stop serial => exact .inl (h.fire_eq serial)
  | finish serial o => exact .inr (.inr (.inr ⟨serial, Endpoint.finish_of_closed h.isOpen serial o⟩))
  | close => exact .inl (Endpoint.close_of_closed h.isOpen)
  | letGo => exact .inl (Endpoint.close_of_closed h.isOpen)
  | read received => exact .inl (if_neg hnot)
  | hand =>
      refine .inl ?_
      simp only [step, Endpoint.dequeue_of_closed h.isOpen]
  | sent o r =>
      refine .inl ?_
      cases r with
      | ok u => rfl
      | error err =>
          simp only [step]
          split
          · exact Endpoint.close_of_closed h.isOpen
          · exact h.undeliverable_eq o err

/-- What is over stays over. -/
theorem over_step (d : Deed η) : (d.step e).1.Over := by
  rcases step_of_over h d with heq | heq | ⟨registry, heq⟩ | ⟨serial, heq⟩
  · rw [heq]
    exact h
  · rw [heq]
    exact ⟨h.isOpen, h.pending, h.fired⟩
  · rw [heq]
    exact ⟨h.isOpen, h.pending, h.fired⟩
  · rw [heq]
    exact ⟨h.isOpen, h.pending, fun r hr => h.fired r (List.mem_of_mem_filter hr)⟩

theorem started_of_over (d : Deed η) : startedIn (d.step e).2 = [] := by
  rcases step_of_over h d with heq | heq | ⟨registry, heq⟩ | ⟨serial, heq⟩ <;> rw [heq] <;> rfl

/-- Runs may end, but none begins. -/
theorem runs_of_over (d : Deed η) : (d.step e).1.runs.Sublist e.runs := by
  rcases step_of_over h d with heq | heq | ⟨registry, heq⟩ | ⟨serial, heq⟩
  · rw [heq]
  · rw [heq]
  · rw [heq]
  · rw [heq]
    exact List.filter_sublist

end Deed

/-! ## Courses -/

variable [Handler η]

/-- What happens at the occasion on which an endpoint is closed. -/
structure Occasion.Disconnecting (x : Occasion η) : Prop where
  /-- Each call that waits is settled, once. -/
  settled : settledIn x.events = x.endpoint.waiting
  calls : ∀ id ∈ x.endpoint.waiting, Disconnects x.events id
  pending : x.after.pending = []
  /-- Every run, for a request or a notification, is still there and has been told to stop. -/
  runs : x.after.runs = x.endpoint.runs.map fun r => { r with fired := true }

theorem Occasion.disconnecting {x : Occasion η} (hopen : x.endpoint.isOpen = true)
    (htrigger : x.deed.isTrigger = true) : x.Disconnecting := by
  obtain ⟨e, d⟩ := x
  have hopen : e.isOpen = true := hopen
  have hstep : d.step e = e.close := Deed.step_of_trigger htrigger e
  refine ⟨?_, ?_, ?_, ?_⟩
  · show settledIn (d.step e).2 = e.waiting
    rw [hstep]
    exact Endpoint.settledIn_close hopen
  · intro id hid
    apply disconnects_of_resultFor?
    show resultFor? (d.step e).2 id = _
    rw [hstep, Endpoint.resultFor?_close hopen]
    exact if_pos hid
  · show (d.step e).1.pending = []
    rw [hstep]
    exact (Endpoint.over_close hopen).pending
  · show (d.step e).1.runs = _
    rw [hstep, Endpoint.close_fst_of_open hopen]

namespace Course

/-- Between two points of a course neither the channel nor a handler was given anything to do. -/
structure Ceased (c c' : Course η) : Prop where
  /-- No message was acted on. -/
  accepted : c'.accepted = c.accepted
  /-- No message was handed to the channel. -/
  handed : c'.handed = c.handed
  started : startedIn c'.events = startedIn c.events
  /-- Runs have ended at most. -/
  runs : c'.endpoint.runs.Sublist c.endpoint.runs

/-- What becomes of a course whose endpoint is closed. -/
structure Final (c : Course η) : Prop where
  isOver : c.endpoint.Over
  /-- A call of a service of the other side is settled at once, whatever its arguments. -/
  invoke : ∀ (i : Identifier) method args, i.side ≠ c.endpoint.side →
    ∃ id s, c.endpoint.invoke i method args = .ok (id, s) ∧
      s.2 = [.settled id (.error .disconnected)] ∧ Disconnects s.2 id ∧ s.1.pending = []
  notify : ∀ (i : Identifier) method args, i.side ≠ c.endpoint.side →
    c.endpoint.notify i method args = .error .disconnected
  /-- Closing it again does nothing. -/
  trigger : ∀ d : Deed η, d.isTrigger = true → d.step c.endpoint = (c.endpoint, [])
  later : ∀ deeds, (c.run deeds).endpoint.Over ∧ c.Ceased (c.run deeds)

/-- **Nothing comes of a course that is over**, whatever is done at it. -/
theorem ceased_run {c : Course η} (h : c.endpoint.Over) (deeds : List (Deed η)) :
    (c.run deeds).endpoint.Over ∧ c.Ceased (c.run deeds) := by
  refine run_induction (P := fun x => x.endpoint.Over ∧ c.Ceased x)
    ⟨h, rfl, rfl, rfl, .refl _⟩ ?_ deeds
  rintro x d ⟨hx, hceased⟩
  refine ⟨Deed.over_step hx d, ?_, ?_, ?_, ?_⟩
  · rw [accepted_act, Deed.accepts?_of_over hx]
    exact (List.append_nil _).trans hceased.accepted
  · rw [handed_act, Deed.hands?_of_over hx]
    exact (List.append_nil _).trans hceased.handed
  · rw [events_act, startedIn_append, Deed.started_of_over hx, List.append_nil]
    exact hceased.started
  · exact (Deed.runs_of_over hx d).trans hceased.runs

theorem final_of_over {c : Course η} (h : c.endpoint.Over) : c.Final where
  isOver := h
  invoke := by
    intro i method args hside
    obtain ⟨s, hinvoke, hevents, hpending⟩ := h.invoke_eq hside method args
    refine ⟨_, s, hinvoke, hevents, disconnects_of_resultFor? ?_, hpending⟩
    rw [hevents]
    simp [resultFor?, Event.settles?]
  notify := fun i method args hside => h.notify_eq hside method args
  trigger := by
    intro d hd
    rw [Deed.step_of_trigger hd]
    exact Endpoint.close_of_closed h.isOpen
  later := ceased_run h

/-- An endpoint is open and has never been closed, or it is over and has been closed once. -/
structure Kept (c : Course η) : Prop where
  closings : c.closings = if c.endpoint.isOpen then 0 else 1
  isOver : c.endpoint.isOpen = false → c.endpoint.Over
  past : ∀ x ∈ c.past, x.endpoint.isOpen = false → x.endpoint.Over

theorem kept_run (config : Config) (deeds : List (Deed η)) :
    ((ofConfig config).run deeds).Kept := by
  refine run_induction ⟨rfl, nofun, fun x hx => absurd hx List.not_mem_nil⟩ ?_ deeds
  intro c d hc
  have hpast : ∀ x ∈ (c.act d).past, x.endpoint.isOpen = false → x.endpoint.Over := by
    intro x hx hclosed
    rw [past_act] at hx
    rcases List.mem_append.mp hx with hx | hx
    · exact hc.past x hx hclosed
    · obtain rfl := List.mem_singleton.mp hx
      exact hc.isOver hclosed
  have hclosings : (c.act d).closings =
      c.closings + if c.endpoint.isOpen && !(d.step c.endpoint).1.isOpen then 1 else 0 := by
    rw [closings, past_act, List.countP_append, List.countP_singleton]
    rfl
  -- the count goes up exactly when an open endpoint meets a deed that is meant to close it
  cases hopen : c.endpoint.isOpen with
  | false =>
      have hover : (d.step c.endpoint).1.Over := Deed.over_step (hc.isOver hopen) d
      refine ⟨?_, fun _ => hover, hpast⟩
      rw [hclosings, hc.closings, hopen, endpoint_act, hover.isOpen]
      rfl
  | true =>
      cases hd : d.isTrigger with
      | false =>
          have hstill : (d.step c.endpoint).1.isOpen = true := (d.steady_step hd _).trans hopen
          refine ⟨?_, ?_, hpast⟩
          · rw [hclosings, hc.closings, hopen, endpoint_act, hstill]
            rfl
          · intro hclosed
            rw [endpoint_act, hstill] at hclosed
            cases hclosed
      | true =>
          have hover : (d.step c.endpoint).1.Over := by
            rw [Deed.step_of_trigger hd]
            exact Endpoint.over_close hopen
          refine ⟨?_, fun _ => hover, hpast⟩
          rw [hclosings, hc.closings, hopen, endpoint_act, hover.isOpen]
          rfl

/-- **An endpoint is closed once, and then it is over.** Over any channel and whatever its users do,
an open endpoint is closed by the first deed that is meant to close it, in one step with its calls
and runs, and never opens again. From then on no call waits or is made in vain, no message is acted
on and none is handed to the channel. -/
theorem closing (config : Config) (deeds : List (Deed η)) :
    let c := (ofConfig config).run deeds
    c.closings = (if c.endpoint.isOpen then 0 else 1) ∧
      (∀ x ∈ c.past, x.endpoint.isOpen = false → x.after.isOpen = false) ∧
      (∀ x ∈ c.past, x.endpoint.isOpen = true →
        (x.after.isOpen = false ↔ x.deed.isTrigger = true)) ∧
      (∀ x ∈ c.past, x.closes = true → x.Disconnecting) ∧
      (c.endpoint.isOpen = false → c.Final) := by
  intro c
  have hc : c.Kept := kept_run config deeds
  refine ⟨hc.closings, ?_, ?_, ?_, ?_⟩
  · intro x hx hclosed
    exact (Deed.over_step (hc.past x hx hclosed) x.deed).isOpen
  · intro x _ hopen
    exact Deed.closes_iff hopen x.deed
  · intro x _ hcloses
    obtain ⟨hopen, hafter⟩ := Bool.and_eq_true_iff.mp hcloses
    have hclosed : x.after.isOpen = false := by simpa using hafter
    exact Occasion.disconnecting hopen ((Deed.closes_iff hopen x.deed).mp hclosed)
  · intro hclosed
    exact final_of_over (hc.isOver hclosed)

/-- The channel breaks while the second request waits, which is then not sent, nor is the endpoint
closed again. -/
example :
    let c : Course Service := (ofConfig (.ofSide .main)).run
      [.request ⟨7⟩ "go" [], .request ⟨7⟩ "go" [], .hand,
        .sent { message := .request ⟨1⟩ ⟨7⟩ "go" [] } (.error .closed), .hand, .close, .letGo]
    c.closings = 1 ∧ c.handed.map (·.message) = [.request ⟨1⟩ ⟨7⟩ "go" []] ∧
      c.endpoint.outbound.map (·.message) = [.request ⟨2⟩ ⟨7⟩ "go" []] :=
  ⟨rfl, rfl, rfl⟩

end Course

end PeerRpc
