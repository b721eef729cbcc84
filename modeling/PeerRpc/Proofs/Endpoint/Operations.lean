import PeerRpc.Endpoint
import PeerRpc.Proofs.Codec.Depth

/-!
# PeerRpc.Proofs.Endpoint.Operations -- what each operation of an endpoint changes

For each operation there is one equation for the endpoint it leaves and one for its events. An
equation names the fields that change, so every other field is seen to be unchanged by `simp`; no
later proof opens an operation again.

What comes in is put down to these operations. `Endpoint.Handles` lists all that is done about a
message, and `Endpoint.undeliverable_cases` all that is done about one that the channel refused.

`Endpoint.refusal?` says why a call is refused, with one rule for each reason in
`Endpoint.Refuses`, and `Endpoint.issued` counts the ids that have been handed out. `resultFor?`
reads the result of a call off the events of a step, and `queuedIn`, `startedIn` and `settledIn`
list the messages that go out, the runs that begin and the calls that are settled.
-/

namespace PeerRpc

/-! ## Events -/

namespace Event

variable {η : Type}

/-- The result with which the event settles the call with this id. -/
def settles? (id : RequestId) : Event η → Option CallResult
  | settled id' r => if id' = id then some r else none
  | _ => none

/-- The message that begins to wait to be sent. -/
def queued? : Event η → Option Outbound
  | queued o => some o
  | _ => none

/-- The run that begins. -/
def started? : Event η → Option (Run η)
  | started r => some r
  | _ => none

/-- The call that is settled. -/
def settled? : Event η → Option RequestId
  | settled id _ => some id
  | _ => none

end Event

section Reading

variable {η : Type}

/-- The result that the events give to the call with this id, if they settle it. -/
def resultFor? (events : List (Event η)) (id : RequestId) : Option CallResult :=
  events.findSome? (Event.settles? id)

/-- The messages that begin to wait. -/
def queuedIn (events : List (Event η)) : List Outbound := events.filterMap Event.queued?

/-- The runs that begin. -/
def startedIn (events : List (Event η)) : List (Run η) := events.filterMap Event.started?

/-- The calls that are settled. -/
def settledIn (events : List (Event η)) : List RequestId := events.filterMap Event.settled?

@[simp] theorem resultFor?_append (xs ys : List (Event η)) (id : RequestId) :
    resultFor? (xs ++ ys) id = (resultFor? xs id).or (resultFor? ys id) :=
  List.findSome?_append

@[simp] theorem queuedIn_append (xs ys : List (Event η)) :
    queuedIn (xs ++ ys) = queuedIn xs ++ queuedIn ys := List.filterMap_append

@[simp] theorem startedIn_append (xs ys : List (Event η)) :
    startedIn (xs ++ ys) = startedIn xs ++ startedIn ys := List.filterMap_append

@[simp] theorem settledIn_append (xs ys : List (Event η)) :
    settledIn (xs ++ ys) = settledIn xs ++ settledIn ys := List.filterMap_append

/-- The events that settle no call give none a result. -/
theorem resultFor?_eq_none_iff (events : List (Event η)) (id : RequestId) :
    resultFor? events id = none ↔ id ∉ settledIn events := by
  unfold resultFor? settledIn
  rw [List.findSome?_eq_none_iff, List.mem_filterMap]
  constructor
  · rintro h ⟨x, hx, hid⟩
    have := h x hx
    cases x <;> simp_all [Event.settled?, Event.settles?]
  · intro h x hx
    cases x with
    | settled id' r =>
        have : id' ≠ id := fun hid => h ⟨_, hx, congrArg some hid⟩
        simp [Event.settles?, this]
    | _ => rfl

end Reading

namespace Endpoint

variable {η : Type}

/-! ## Messages that go out -/

@[simp] theorem enqueue_fst (e : Endpoint η) (o : Outbound) :
    (e.enqueue o).1 =
      { e with outbound := if e.isOpen then e.outbound ++ [o] else e.outbound } := by
  unfold enqueue
  split <;> rfl

@[simp] theorem enqueue_snd (e : Endpoint η) (o : Outbound) :
    (e.enqueue o).2 = if e.isOpen then [.queued o] else [] := by
  unfold enqueue
  split <;> rfl

theorem dequeue_eq_some {e e' : Endpoint η} {o : Outbound} :
    e.dequeue = some (o, e') ↔
      e.isOpen = true ∧ ∃ rest, e.outbound = o :: rest ∧ e' = { e with outbound := rest } := by
  unfold dequeue
  constructor
  · intro h
    split at h
    · next o' rest hopen hout =>
        obtain ⟨rfl, rfl⟩ := Prod.mk.inj (Option.some.inj h)
        exact ⟨hopen, rest, hout, rfl⟩
    · simp at h
  · rintro ⟨hopen, rest, hout, rfl⟩
    rw [hopen, hout]

/-! ## Calls -/

@[simp] theorem settle_fst (e : Endpoint η) (id : RequestId) (r : ProxyId → CallResult) :
    (e.settle id r).1 = { e with pending := e.pending.filter fun p => p.1 ≠ id } := by
  unfold settle
  split
  · next h =>
      -- nobody waits under the id, so the filter keeps everything
      have hall : ∀ p ∈ e.pending, (decide (p.1 ≠ id)) = true := by
        intro p hp
        have := List.find?_eq_none.mp h p hp
        simpa using this
      rw [List.filter_eq_self.mpr hall]
  · rfl

@[simp] theorem settle_snd (e : Endpoint η) (id : RequestId) (r : ProxyId → CallResult) :
    (e.settle id r).2 =
      ((e.pending.find? fun p => p.1 = id).toList).map fun p => .settled id (r p.2) := by
  unfold settle
  split
  · next h => rw [h]; rfl
  · next h => rw [h]; rfl

/-- Why a call of a service is refused, if it is. -/
def refusal? (e : Endpoint η) (proxy : ProxyId) (method : String) (args : List Value) :
    Option CallError :=
  if !e.isOpen then some .disconnected
  else if e.config.maxInFlight ≤ e.pendingCount then
    some (.tooManyInFlight e.pendingCount e.config.maxInFlight)
  else
    match Codec.encodeMessage (.request ⟨e.nextId⟩ proxy method args) with
    | .error err => some (.codec err)
    | .ok _ => none

/-- Why an endpoint refuses a call of a service of the other side. -/
inductive Refuses (e : Endpoint η) (args : List Value) : CallError → Prop
  /-- It is closed. -/
  | closed (closed : e.isOpen = false) : Refuses e args .disconnected
  /-- As many calls wait as may. -/
  | full (isOpen : e.isOpen = true) (full : e.config.maxInFlight ≤ e.pendingCount) :
      Refuses e args (.tooManyInFlight e.pendingCount e.config.maxInFlight)
  /-- An argument is nested too deep. -/
  | deep (isOpen : e.isOpen = true) (room : e.pendingCount < e.config.maxInFlight)
      (deep : ∃ v ∈ args, Codec.maxDepth < v.depth) :
      Refuses e args (.codec (.nestingTooDeep Codec.maxDepth))

theorem refusal?_eq_some {e : Endpoint η} {proxy : ProxyId} {method : String} {args : List Value}
    {err : CallError} : e.refusal? proxy method args = some err ↔ e.Refuses args err := by
  constructor
  · intro h
    unfold refusal? at h
    split at h
    · next hclosed =>
        cases h
        exact .closed (by simpa using hclosed)
    · next hopen =>
        have hopen : e.isOpen = true := by simpa using hopen
        split at h
        · next hfull =>
            cases h
            exact .full hopen hfull
        · next hroom =>
            split at h
            · next err' herr =>
                cases h
                obtain rfl := Codec.encodeMessage_eq_error herr
                obtain ⟨v, hv, hdeep⟩ := (Codec.checked _).refused.mp ⟨_, herr⟩
                exact .deep hopen (Nat.lt_of_not_le hroom) ⟨v, Message.carries_iff.mp hv, hdeep⟩
            · cases h
  · intro h
    unfold refusal?
    cases h with
    | closed hclosed => rw [hclosed, if_pos (by rfl)]
    | full hopen hfull => rw [hopen, if_neg (by simp), if_pos hfull]
    | deep hopen hroom hdeep =>
        obtain ⟨v, hv, hdeep⟩ := hdeep
        obtain ⟨err, herr⟩ := (Codec.checked (.request ⟨e.nextId⟩ proxy method args)).refused.mpr
          ⟨v, .argument _ _ _ hv, hdeep⟩
        rw [hopen, if_neg (by simp), if_neg (Nat.not_le.mpr hroom), herr]
        exact congrArg (some ∘ CallError.codec) (Codec.encodeMessage_eq_error herr)

/-- What it takes to call a service of the other side. -/
structure Grants (e : Endpoint η) (proxy : ProxyId) (method : String) (args : List Value) :
    Prop where
  isOpen : e.isOpen = true
  room : e.pendingCount < e.config.maxInFlight
  encodes : ∃ bs, Codec.encodeMessage (.request ⟨e.nextId⟩ proxy method args) = .ok bs

theorem refusal?_eq_none {e : Endpoint η} {proxy : ProxyId} {method : String} {args : List Value}
    (h : e.refusal? proxy method args = none) : e.Grants proxy method args := by
  unfold refusal? at h
  split at h
  · cases h
  · next hclosed =>
      split at h
      · cases h
      · next hfull =>
          split at h
          · cases h
          · next bs hbs => exact ⟨by simpa using hclosed, Nat.lt_of_not_le hfull, bs, hbs⟩

@[simp] theorem request_id (e : Endpoint η) (proxy : ProxyId) (method : String)
    (args : List Value) : (e.request proxy method args).1 = ⟨e.nextId⟩ := by
  unfold request
  dsimp only
  split
  · rfl
  · split
    · rfl
    · split <;> rfl

/-- A call that is refused uses up an id and is settled at once. -/
theorem request_of_refusal {e : Endpoint η} {proxy : ProxyId} {method : String}
    {args : List Value} {err : CallError} (h : e.refusal? proxy method args = some err) :
    (e.request proxy method args).2 =
      ({ e with nextId := e.nextId + 1 }, [.settled ⟨e.nextId⟩ (.error err)]) := by
  -- the refusal is looked for in the order in which the call finds it
  unfold refusal? at h
  unfold request
  dsimp only
  split at h
  · next hc =>
      obtain rfl := Option.some.inj h
      rw [if_pos hc]
  · next hc =>
      rw [if_neg hc]
      split at h
      · next hm =>
          obtain rfl := Option.some.inj h
          exact congrArg Prod.snd (if_pos hm)
      · next hm =>
          have hm' : ¬ ({ e with nextId := e.nextId + 1 } : Endpoint η).config.maxInFlight ≤
              ({ e with nextId := e.nextId + 1 } : Endpoint η).pendingCount := hm
          rw [if_neg hm']
          cases hcodec : Codec.encodeMessage (.request ⟨e.nextId⟩ proxy method args) with
          | ok bs => simp [hcodec] at h
          | error err' =>
              simp only [hcodec, Option.some.injEq] at h
              subst h
              rfl

/-- A call that is not refused waits for its answer, and its request waits to be sent. -/
theorem request_of_none {e : Endpoint η} {proxy : ProxyId} {method : String}
    {args : List Value} (h : e.refusal? proxy method args = none) :
    (e.request proxy method args).2 =
      ({ e with
          nextId := e.nextId + 1, pending := e.pending ++ [(⟨e.nextId⟩, proxy)],
          outbound := e.outbound ++ [{ message := .request ⟨e.nextId⟩ proxy method args }] },
        [.queued { message := .request ⟨e.nextId⟩ proxy method args }]) := by
  obtain ⟨hopen, hroom, bs, hbs⟩ := refusal?_eq_none h
  have hroom' : ¬ ({ e with nextId := e.nextId + 1 } : Endpoint η).config.maxInFlight ≤
      ({ e with nextId := e.nextId + 1 } : Endpoint η).pendingCount := Nat.not_le.mpr hroom
  have hclosed : ¬(!e.isOpen) = true := by simp [hopen]
  unfold request
  dsimp only
  rw [if_neg hclosed, if_neg hroom', hbs]
  simp [enqueue, hopen]

@[simp] theorem nextId_request (e : Endpoint η) (proxy : ProxyId) (method : String)
    (args : List Value) : (e.request proxy method args).2.1.nextId = e.nextId + 1 := by
  cases hr : e.refusal? proxy method args with
  | some err => rw [request_of_refusal hr]
  | none => rw [request_of_none hr]

@[simp] theorem isOpen_request (e : Endpoint η) (proxy : ProxyId) (method : String)
    (args : List Value) : (e.request proxy method args).2.1.isOpen = e.isOpen := by
  cases hr : e.refusal? proxy method args with
  | some err => rw [request_of_refusal hr]
  | none => rw [request_of_none hr]

/-- A call waits unless it is refused. -/
theorem pending_request (e : Endpoint η) (proxy : ProxyId) (method : String)
    (args : List Value) :
    (e.request proxy method args).2.1.pending =
      e.pending ++ if (e.refusal? proxy method args).isNone then [(⟨e.nextId⟩, proxy)] else [] := by
  cases hr : e.refusal? proxy method args with
  | some err =>
      rw [request_of_refusal hr]
      exact (List.append_nil _).symm
  | none =>
      rw [request_of_none hr]
      rfl

/-- A notification that is not refused waits to be sent. -/
theorem notifyProxy_eq_ok {e : Endpoint η} {proxy : ProxyId} {method : String}
    {args : List Value} {s : Step η} (h : e.notifyProxy proxy method args = .ok s) :
    e.isOpen = true ∧ s = e.enqueue { message := .notification proxy method args } := by
  unfold notifyProxy at h
  dsimp only at h
  split at h
  · cases h
  · next hopen =>
      split at h
      · cases h
      · exact ⟨by simpa using hopen, (Except.ok.inj h).symm⟩

/-- A notification to an identified service is one to the service with its id. -/
theorem notify_eq_ok {e : Endpoint η} {i : Identifier} {method : String} {args : List Value}
    {s : Step η} (h : e.notify i method args = .ok s) :
    e.notifyProxy i.id method args = .ok s := by
  unfold notify proxyFor at h
  split at h
  · cases h
  · exact h

/-- How many ids have been handed out. -/
def issued (e : Endpoint η) : Nat := (e.nextId - 1).toNat

/-- The next id is one more than the number of those handed out. -/
theorem toNat_nextId {e : Endpoint η} (h : e.nextId ≠ 0) : e.nextId.toNat = e.issued + 1 := by
  have hpos : e.nextId.toNat ≠ 0 := fun h0 => h (UInt64.toNat_inj.mp (by simpa using h0))
  have hlt := e.nextId.toNat_lt
  unfold issued
  rw [UInt64.toNat_sub]
  simp
  omega

theorem issued_next (e : Endpoint η) (h : e.nextId ≠ 0) :
    ({ e with nextId := e.nextId + 1 } : Endpoint η).issued = e.issued + 1 := by
  rw [← toNat_nextId h]
  unfold issued
  simp

/-- The calls that wait for their answers. -/
def waiting (e : Endpoint η) : List RequestId := e.pending.map Prod.fst

theorem any_pending (e : Endpoint η) (id : RequestId) :
    (e.pending.any fun p => p.1 = id) = true ↔ id ∈ e.waiting := by
  simp [waiting]

theorem find?_pending_isSome (e : Endpoint η) (id : RequestId) :
    (e.pending.find? fun p => p.1 = id).isSome = true ↔ id ∈ e.waiting := by
  simp [waiting]

@[simp] theorem cancelRequest_fst (e : Endpoint η) (id : RequestId) (reason : CallError) :
    (e.cancelRequest id reason).1 = decide (id ∈ e.waiting) := by
  unfold cancelRequest
  by_cases h : id ∈ e.waiting
  · rw [if_pos ((any_pending e id).mpr h), decide_eq_true h]
  · rw [if_neg (mt (any_pending e id).mp h), decide_eq_false h]

theorem cancelRequest_of_waiting {e : Endpoint η} {id : RequestId} (h : id ∈ e.waiting)
    (reason : CallError) :
    (e.cancelRequest id reason).2 =
      andThen (e.settle id fun _ => .error reason) fun e => e.enqueue { message := .cancel id } := by
  unfold cancelRequest
  rw [if_pos ((any_pending e id).mpr h)]

theorem cancelRequest_of_not_waiting {e : Endpoint η} {id : RequestId} (h : id ∉ e.waiting)
    (reason : CallError) : (e.cancelRequest id reason).2 = (e, []) := by
  unfold cancelRequest
  rw [if_neg (mt (any_pending e id).mp h)]

/-! ## Runs -/

@[simp] theorem fire_fst (e : Endpoint η) (serial : Nat) :
    (e.fire serial).1 =
      { e with runs := e.runs.map fun r =>
          if r.serial = serial then { r with fired := true } else r } := by
  unfold fire
  split
  · rfl
  · next h =>
      -- every run with the number has been told already
      have hsame : e.runs.map (fun r => if r.serial = serial then { r with fired := true } else r) =
          e.runs := by
        refine Eq.trans (List.map_congr_left fun r hr => ?_) (List.map_id e.runs)
        split
        · next hs =>
            have hf : r.fired = true := by
              simp only [List.any_eq_true, not_exists, not_and] at h
              simpa [hs] using h r hr
            cases r
            simp_all
        · rfl
      rw [hsame]

theorem fire_snd (e : Endpoint η) (serial : Nat) :
    (e.fire serial).2 = [.fired serial] ∨ (e.fire serial).2 = [] := by
  unfold fire
  split
  · exact Or.inl rfl
  · exact Or.inr rfl

/-- The run that `start` begins. -/
def newRun [Handler η] (e : Endpoint η) (request : Option RequestId) (proxy : ProxyId)
    (method : String) (args : List Value) (h : η) : Run η :=
  { serial := e.nextRun, request := request, proxy := proxy, method := method, args := args,
    handler := h, abortable := request.isSome && Handler.isCancellable h method }

theorem start_eq [Handler η] (e : Endpoint η) (request : Option RequestId) (proxy : ProxyId)
    (method : String) (args : List Value) (h : η) :
    e.start request proxy method args h =
      ({ e with
          runs := e.runs ++ [e.newRun request proxy method args h], nextRun := e.nextRun + 1 },
        [.started (e.newRun request proxy method args h)]) := rfl

theorem finish_of_none {e : Endpoint η} {serial : Nat} (h : e.run? serial = none) (o : Outcome) :
    e.finish serial o = (e, []) := by
  unfold finish
  rw [h]

theorem finish_of_notification {e : Endpoint η} {serial : Nat} {r : Run η}
    (h : e.run? serial = some r) (hr : r.request = none) (o : Outcome) :
    e.finish serial o = ({ e with runs := e.runs.filter fun r => r.serial ≠ serial }, []) := by
  unfold finish
  rw [h]
  simp only [hr]

theorem finish_of_request {e : Endpoint η} {serial : Nat} {r : Run η} {id : RequestId}
    (h : e.run? serial = some r) (hr : r.request = some id) (o : Outcome) :
    e.finish serial o =
      ({ e with runs := e.runs.filter fun r => r.serial ≠ serial } : Endpoint η).sendReply id
        o.toReply := by
  unfold finish
  rw [h]
  simp only [hr]

/-- A run that ends leaves, and its request is answered if it has one. -/
theorem finish_cases (e : Endpoint η) (serial : Nat) (o : Outcome) :
    e.finish serial o = ({ e with runs := e.runs.filter fun r => r.serial ≠ serial }, []) ∨
      ∃ id, e.finish serial o =
        ({ e with runs := e.runs.filter fun r => r.serial ≠ serial } : Endpoint η).sendReply id
          o.toReply := by
  cases hr : e.run? serial with
  | none =>
      -- where there is no such run, the filter keeps all of them
      have hall : ∀ r ∈ e.runs, decide (r.serial ≠ serial) = true := by
        intro r hmem
        have hne := List.find?_eq_none.mp hr r hmem
        simpa using hne
      left
      rw [finish_of_none hr, List.filter_eq_self.mpr hall]
  | some r =>
      cases hid : r.request with
      | none => exact Or.inl (finish_of_notification hr hid o)
      | some id => exact Or.inr ⟨id, finish_of_request hr hid o⟩

/-! ## Messages that come in -/

/-- All that an endpoint does about a message: nothing, or one step of a few kinds. A run begins with
the handler that is registered. -/
inductive Handles [Handler η] (e : Endpoint η) : Step η → Prop where
  | nothing : Handles e (e, [])
  | misses (id : RequestId) (proxy : ProxyId) :
      Handles e (e.sendReply id (.error (.noSuchProxy proxy)))
  | starts (request : Option RequestId) {proxy : ProxyId} (method : String) (args : List Value)
      {g : η} (h : e.registry.get? proxy = some g) :
      Handles e (e.start request proxy method args g)
  | settles (id : RequestId) (r : ProxyId → CallResult) : Handles e (e.settle id r)
  | fires (serial : Nat) : Handles e (e.fire serial)

theorem handles_dispatch [Handler η] (e : Endpoint η) (m : Message) : e.Handles (e.dispatch m) := by
  cases m with
  | request id proxy method args =>
      simp only [dispatch]
      split
      · exact .nothing
      · split
        · exact .misses id proxy
        · next g hg => exact .starts (some id) method args hg
  | notification proxy method args =>
      simp only [dispatch]
      split
      · exact .nothing
      · next g hg => exact .starts none method args hg
  | reply id v => exact .settles id _
  | replyErr id err => exact .settles id _
  | cancel id =>
      simp only [dispatch]
      split
      · exact .nothing
      · exact .fires _

/-- **What an endpoint does about a frame** is what it does about a message, or nothing. -/
theorem handles_receive [Handler η] (e : Endpoint η) (frame : Bytes) :
    e.Handles (e.receive frame) := by
  unfold receive
  split
  · split
    · exact .nothing
    · exact handles_dispatch e _
  · exact .nothing

/-- What an endpoint does about a message that the channel refused: nothing, or it settles the call
that the message was for, or it lets another message wait in its place. -/
theorem undeliverable_cases (e : Endpoint η) (o : Outbound) (err : TransportError) :
    e.undeliverable o err = (e, []) ∨ (∃ id r, e.undeliverable o err = e.settle id r) ∨
      ∃ o', e.undeliverable o err = e.enqueue o' := by
  unfold undeliverable undeliverable.inform
  split
  · exact Or.inr (Or.inl ⟨_, _, rfl⟩)
  · split
    · exact Or.inl rfl
    · exact Or.inr (Or.inr ⟨_, rfl⟩)
  · split
    · exact Or.inl rfl
    · exact Or.inr (Or.inr ⟨_, rfl⟩)
  · exact Or.inl rfl

/-! ## Closing -/

theorem close_of_closed {e : Endpoint η} (h : e.isOpen = false) : e.close = (e, []) := by
  unfold close
  rw [h]
  rfl

theorem close_fst_of_open {e : Endpoint η} (h : e.isOpen = true) :
    e.close.1 =
      { e with
        isOpen := false, pending := [], runs := e.runs.map fun r => { r with fired := true } } := by
  unfold close
  rw [if_pos h]

theorem close_snd_of_open {e : Endpoint η} (h : e.isOpen = true) :
    e.close.2 =
      [.closed] ++ e.pending.map (fun p => .settled p.1 (.error .disconnected)) ++
        (e.runs.filter fun r => !r.fired).reverse.map (fun r => .fired r.serial) ++ [.halted] := by
  unfold close
  rw [if_pos h]

theorem isOpen_close (e : Endpoint η) : e.close.1.isOpen = false := by
  cases h : e.isOpen with
  | true => rw [close_fst_of_open h]
  | false =>
      rw [close_of_closed h]
      exact h

end Endpoint

end PeerRpc
