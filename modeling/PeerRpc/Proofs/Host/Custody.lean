import PeerRpc.Proofs.Cbor.Messages
import PeerRpc.Proofs.Host.Exchange

/-!
# PeerRpc.Proofs.Host.Custody -- no host loses a request

What a second endpoint must know of the first one besides `Host.Posting`: a call that begins to wait
has a new id (`Host.waits_of_request`), ids are never taken back (`Host.issued_step`), and a
request that arrives is worked on until it is answered (`Host.Tidy.custody`): an act may turn one
into the other but leaves the number of both together alone.
-/

namespace PeerRpc

variable {η : Type}

/-! ## Reading a message -/

namespace Message

/-- The id of a request. -/
def asks? : Message → Option RequestId
  | request id .. => some id
  | _ => none

/-- The request that a message answers. -/
def replies? : Message → Option RequestId
  | reply id _ => some id
  | replyErr id _ => some id
  | _ => none

/-- The request that a message takes back. -/
def withdraws? : Message → Option RequestId
  | cancel id => some id
  | _ => none

@[simp] theorem asks?_received (m : Message) : m.received.asks? = m.asks? := by cases m <;> rfl

@[simp] theorem replies?_received (m : Message) : m.received.replies? = m.replies? := by
  cases m <;> rfl

@[simp] theorem withdraws?_received (m : Message) : m.received.withdraws? = m.withdraws? := by
  cases m <;> rfl

theorem replies?_eq_some {m : Message} {id : RequestId} :
    m.replies? = some id ↔ ∃ reply, m.answers? (some id) = some reply := by
  cases m with
  | reply id' v =>
      simp only [replies?, answers?, Option.ite_none_right_eq_some, Option.some.injEq]
      constructor
      · intro h
        exact ⟨_, h.symm, rfl⟩
      · rintro ⟨reply, h, -⟩
        exact h.symm
  | replyErr id' err =>
      simp only [replies?, answers?, Option.ite_none_right_eq_some, Option.some.injEq]
      constructor
      · intro h
        exact ⟨_, h.symm, rfl⟩
      · rintro ⟨reply, h, -⟩
        exact h.symm
  | _ =>
      constructor
      · intro h
        cases h
      · rintro ⟨reply, h⟩
        cases h

theorem eq_cancel_of_withdraws {m : Message} {id : RequestId} (h : m.withdraws? = some id) :
    m = .cancel id := by
  cases m with
  | cancel id' => exact congrArg cancel (Option.some.inj h)
  | _ => cases h

theorem eq_request_of_received {m : Message} {id : RequestId} {proxy : ProxyId} {method : String}
    {args : List Value} (h : m.received = .request id proxy method args) :
    ∃ args₀, m = .request id proxy method args₀ ∧ args = args₀.map Value.sorted := by
  cases m with
  | request id' proxy' method' args' =>
      obtain ⟨rfl, rfl, rfl, rfl⟩ := Message.request.inj h
      exact ⟨args', rfl, rfl⟩
  | _ => cases h

theorem isRequest_eq_true {m : Message} {id : RequestId} :
    m.isRequest (some id) = true ↔ m.asks? = some id := by
  cases m with
  | request id' proxy method args =>
      simp only [isRequest, asks?, decide_eq_true_eq, Option.some.injEq]
      exact eq_comm
  | _ =>
      constructor
      · intro h
        cases h
      · intro h
        cases h

end Message

/-- An answer is an answer, unless it stands in for a refused one. -/
theorem Outbound.answers?_eq {o : Outbound} (h : o.lastResort = false) :
    o.answers? = o.message.replies? := by
  unfold answers? Message.replies?
  rw [h]
  rfl

theorem Outbound.replies?_of_answers? {o : Outbound} {id : RequestId} (h : o.answers? = some id) :
    o.message.replies? = some id :=
  answers?_eq (Host.lastResort_of_answers h) ▸ h

@[simp] theorem Outcome.replies?_message (id : RequestId) (out : Outcome) :
    (out.message id).replies? = some id := by
  rcases out.message_cases id with ⟨v, h⟩ | ⟨err, h⟩ <;> rw [h] <;> rfl

@[simp] theorem Outcome.asks?_message (id : RequestId) (out : Outcome) :
    (out.message id).asks? = none := by
  rcases out.message_cases id with ⟨v, h⟩ | ⟨err, h⟩ <;> rw [h] <;> rfl

@[simp] theorem Outcome.withdraws?_message (id : RequestId) (out : Outcome) :
    (out.message id).withdraws? = none := by
  rcases out.message_cases id with ⟨v, h⟩ | ⟨err, h⟩ <;> rw [h] <;> rfl

namespace Host

/-! ## Ids -/

theorem Sound.issued_of_waiting {h : Host η} (hh : h.Sound) {id : RequestId}
    (hw : id ∈ h.endpoint.waiting) : id.val.toNat ≤ h.endpoint.issued := by
  obtain ⟨k, q, hq, hid, -⟩ := hh.exists_of_waiting hw
  refine hh.issued id (List.mem_filterMap.mpr ⟨q.account, ?_, hid⟩)
  exact List.mem_map_of_mem (List.mem_of_getElem? hq)

variable [Handler η]

/-- Ids are never taken back. -/
theorem issued_step (h : Host η) (a : Act η) :
    h.endpoint.issued ≤ (h.step a).1.endpoint.issued := by
  cases ha : a.asks with
  | false =>
      have hnext := (h.settles_step ha).balanced.nextId
      unfold Endpoint.issued
      exact Nat.le_of_eq (congrArg (fun n => (n - 1).toNat) hnext.symm)
  | true =>
      rcases h.step_asks ha with ⟨hs, -⟩ | ⟨_, _, _, _, hs, -⟩ | ⟨hn, proxy, method, args, hs, -⟩
      · exact Nat.le_of_eq (by rw [hs])
      · exact Nat.le_of_eq (by rw [hs])
      · have hnext : (h.step a).1.endpoint.nextId = h.endpoint.nextId + 1 := by
          rw [hs]
          exact Endpoint.nextId_request h.endpoint proxy method args
        have hissued := h.endpoint.issued_next hn
        unfold Endpoint.issued at hissued ⊢
        rw [hnext]
        dsimp only at hissued
        omega

/-- A message that asks is a request. -/
theorem eq_of_asks {h : Host η} {a : Act η} {o : Outbound} {id : RequestId}
    (hq : h.queues? a = some o) (ho : o.message.asks? = some id) :
    ∃ proxy method args, o = { message := .request id proxy method args } := by
  cases posting hq with
  | request proxy method args message =>
      subst message
      obtain rfl := Option.some.inj ho
      exact ⟨proxy, method, args, rfl⟩
  | outcome id' r out message =>
      subst message
      rw [Outcome.asks?_message] at ho
      cases ho
  | _ => subst_vars; cases ho

/-- A request that is queued belongs to a new call. -/
theorem waits_of_request {h : Host η} {a : Act η} {id : RequestId} {proxy : ProxyId}
    {method : String} {args : List Value}
    (hq : h.queues? a = some { message := .request id proxy method args }) :
    h.endpoint.issued < id.val.toNat ∧ id ∈ (h.step a).1.endpoint.waiting ∧
      (some id, proxy, method, args) ∈ (h.step a).1.calls.map Asked.wish := by
  obtain ⟨rfl, next, granted, step, -⟩ := posting_request hq
  have hnext := Endpoint.toNat_nextId next
  refine ⟨?_, ?_, ?_⟩
  · show _ < h.endpoint.nextId.toNat
    omega
  · rw [step]
    show _ ∈ (h.endpoint.request proxy method args).2.1.pending.map Prod.fst
    rw [Endpoint.pending_request, granted, List.map_append]
    exact List.mem_append_right _ (List.mem_singleton_self _)
  · rw [step, wishes_begin]
    exact List.mem_append_right _ (List.mem_singleton_self _)

/-- A request that is queued is new, and its call waits. -/
theorem new_of_asks {h : Host η} {a : Act η} {o : Outbound} {id : RequestId}
    (hq : h.queues? a = some o) (ho : o.message.asks? = some id) :
    h.endpoint.issued < id.val.toNat ∧ id ∈ (h.step a).1.endpoint.waiting := by
  obtain ⟨proxy, method, args, rfl⟩ := eq_of_asks hq ho
  obtain ⟨hlt, hwait, -⟩ := waits_of_request hq
  exact ⟨hlt, hwait⟩

theorem new_of_count_asks {h : Host η} {a : Act η} {id : RequestId}
    (hpos : 0 < (h.queues? a).toList.countP fun o => o.message.asks? = some id) :
    h.endpoint.issued < id.val.toNat ∧ id ∈ (h.step a).1.endpoint.waiting := by
  obtain ⟨o, hq, hask⟩ := List.countP_pos_iff.mp hpos
  exact new_of_asks (Option.mem_toList.mp hq) (of_decide_eq_true hask)

/-- A call that goes on waiting is neither answered nor refused. -/
theorem Sound.unended {h : Host η} (hh : h.Sound) {a : Act η} {id : RequestId}
    (hwait : id ∈ (h.step a).1.endpoint.waiting) :
    (h.bounced? a).toList.countP (fun x => x.1.message.asks? = some id) = 0 ∧
      (h.receives? a).toList.countP (fun m => m.replies? = some id) = 0 := by
  constructor
  · refine List.countP_eq_zero.mpr fun ⟨o, err⟩ hb hask => ?_
    exact hh.left (.refused o err (Option.mem_toList.mp hb)
      (Message.isRequest_eq_true.mpr (of_decide_eq_true hask))) hwait
  · refine List.countP_eq_zero.mpr fun m hm hreply => ?_
    obtain ⟨reply, hanswer⟩ := Message.replies?_eq_some.mp (of_decide_eq_true hreply)
    exact hh.left (.answered m reply (Option.mem_toList.mp hm) hanswer) hwait

/-- Only a call that waits is taken back. -/
theorem waited_of_withdraws {h : Host η} {a : Act η} {o : Outbound} {id : RequestId}
    (hq : h.queues? a = some o) (ho : o.message.withdraws? = some id) :
    id ∈ h.endpoint.waiting ∧ o = { message := .cancel id } := by
  cases posting hq with
  | cancel k q id' message call named waits =>
      subst message
      obtain rfl : id' = id := Option.some.inj ho
      exact ⟨waits, rfl⟩
  | outcome id' r out message =>
      subst message
      rw [Outcome.withdraws?_message] at ho
      cases ho
  | _ => subst_vars; cases ho

/-- A call that waits no longer never waits again. -/
theorem not_mem_waiting_step {h : Host η} {id : RequestId} (hid : id.val.toNat ≤ h.endpoint.issued)
    (hgone : id ∉ h.endpoint.waiting) (a : Act η) : id ∉ (h.step a).1.endpoint.waiting := by
  intro hw
  obtain ⟨proxy, method, args, hq⟩ := joins hgone hw
  have hlt := (waits_of_request hq).1
  omega

omit [Handler η] in
/-- A run is answered only before the end. -/
theorem Ends.isOpen {h : Host η} {a : Act η} {o : Outbound} {id : RequestId} {r : Run η}
    {out : Outcome} (he : h.Ends a id o r out) (hq : h.queues? a = some o) :
    h.endpoint.isOpen = true := by
  rw [he.act] at hq
  obtain ⟨r', hrun, hq₁⟩ := Option.bind_eq_some_iff.mp hq
  obtain ⟨out', -, hq₂⟩ := Option.bind_eq_some_iff.mp hq₁
  obtain ⟨id', -, hq₃⟩ := Option.bind_eq_some_iff.mp hq₂
  unfold Endpoint.answers? at hq₃
  split at hq₃
  · next hopen => exact hopen
  · cases hq₃

omit [Handler η] in
/-- A run is aborted only if it has been told to stop. -/
theorem fired_of_aborted {h : Host η} {r : Run η} (hown : ∀ p ∈ h.concluded, p.2.isOwn = true)
    (hend : h.ending? r = some .aborted) : r.fired = true := by
  rcases ending?_eq_some hend with hmem | ⟨-, -, hfired⟩
  · exact absurd (hown _ hmem) Bool.false_ne_true
  · exact hfired

omit [Handler η] in
/-- An outcome that is no abort is that of the handler. -/
theorem outcome?_of_own {h : Host η} {r : Run η} {out : Outcome} (hend : h.ending? r = some out)
    (hown : out.isOwn = true) : h.outcome? r.serial = some out := by
  unfold ending? at hend
  split at hend
  · next out' hout => exact hout.trans hend
  · split at hend
    · obtain rfl := Option.some.inj hend
      cases hown
    · cases hend

omit [Handler η] in
/-- An answer ends a call when it arrives with the id of the call. -/
theorem receives?_of_answered {h : Host η} {k : Nat} {q : Asked} {a : Act η}
    {reply : Except RemoteError Value} (hz : q.cause? h k a = some (.answered reply)) :
    ∃ m id, h.receives? a = some m ∧ q.call.id = some id ∧ m.answers? (some id) = some reply := by
  cases Asked.endedBy hz with
  | answered frame m reply isOpen decodes answers =>
      have hm : h.receives? (.receive frame) = some m := by
        simp only [receives?, isOpen, if_true, decodes]
        rfl
      cases hid : q.call.id with
      | none =>
          rw [hid] at answers
          cases m <;> simp [Message.answers?] at answers
      | some id => exact ⟨m, id, hm, rfl, hid ▸ answers⟩

omit [Handler η] in
theorem calls_of_answered {m : Moment η} {k : Nat} {reply : Except RemoteError Value}
    (hz : m.cause? k = some (.answered reply)) :
    ∃ q, m.host.calls[k]? = some q ∧ q.cause? m.host k m.act = some (.answered reply) := by
  unfold Moment.cause? at hz
  split at hz
  · next q hq => exact ⟨q, hq, hz⟩
  · split at hz
    · obtain ⟨err, -, heq⟩ := Option.map_eq_some_iff.mp hz
      cases heq
    · cases hz

/-! ## Closing -/

/-- A closed endpoint stays closed. -/
theorem isOpen_step_of_closed {h : Host η} (hclosed : h.endpoint.isOpen = false) (a : Act η) :
    (h.step a).1.endpoint.isOpen = false := by
  cases hopen : (h.step a).1.endpoint.isOpen with
  | false => rfl
  | true => rw [h.isOpen_of_step a hopen] at hclosed; cases hclosed

/-- An act that closes the endpoint leaves it closed. -/
theorem isOpen_of_closes {h : Host η} {a : Act η} (hc : h.closes a = true) :
    (h.step a).1.endpoint.isOpen = false := by
  have hclose := h.endpoint.isOpen_close
  unfold closes at hc
  split at hc
  · exact hclose
  · next err =>
      simp only [Bool.and_eq_true, Option.isSome_iff_exists] at hc
      obtain ⟨⟨hopen, hterm⟩, o, hsend⟩ := hc
      simp only [Host.step, hsend, hterm, if_true]
      exact hclose
  · cases hc

/-- A channel that is closed closes the endpoint. -/
theorem isOpen_of_broken {h : Host η} {o : Outbound} (hs : h.sending = some o) :
    (h.step (.sent (.error .closed))).1.endpoint.isOpen = false := by
  cases hopen : h.endpoint.isOpen with
  | false => exact isOpen_step_of_closed hopen _
  | true =>
      refine isOpen_of_closes ?_
      simp only [closes, hopen, hs]
      rfl

/-! ## Custody -/

/-- The answer that the channel refuses is replaced, and every other answer is a new one. -/
theorem Sound.replying {h : Host η} (hh : h.Sound) (hopen : h.endpoint.isOpen = true) (a : Act η)
    (id : RequestId) :
    (h.queues? a).toList.countP (fun o => o.message.replies? = some id) =
      h.answering a id + (h.bounced? a).toList.countP (fun p => p.1.answers? = some id) := by
  rw [answering, hh.queuedIn_step]
  cases hb : h.bounced? a with
  | some p =>
      obtain ⟨o, err⟩ := p
      obtain ⟨rfl, -⟩ := bounced?_eq_some hb
      have hq : h.queues? (.sent (.error err)) = h.endpoint.replaces? o err := by
        show (h.bounced? _).bind _ = _
        rw [hb]
        rfl
      rw [hq, Endpoint.replaces?, if_pos hopen]
      cases ho : o.answers? with
      | none => simp [ho]
      | some id' =>
          -- a replacement is itself no answer that could be replaced
          have hlast : ∀ o' : Outbound, o'.lastResort = true → o'.answers? = none := by
            intro o' h
            simp only [Outbound.answers?, h, if_true]
          simp [hlast, ho, Message.replies?]
  | none =>
      cases hq : h.queues? a with
      | none => rfl
      | some o =>
          have hlast : o.lastResort = false := by
            cases posting hq with
            | replacement o' err id' bounced => rw [hb] at bounced; cases bounced
            | _ => subst_vars; rfl
          simp [Outbound.answers?_eq hlast]

omit [Handler η] in
theorem accepts_eq {h : Host η} {a : Act η} {id : RequestId} (hfree : h.endpoint.runFor? id = none) :
    (if Moment.accepts ⟨h, a⟩ id then 1 else 0) =
      (h.receives? a).toList.countP fun m => m.asks? = some id := by
  unfold Moment.accepts
  cases hm : h.receives? a with
  | none => rfl
  | some m =>
      cases m with
      | request id' proxy method args =>
          by_cases hid : id' = id
          · subst hid
            simp [Message.asks?, hfree]
          · simp [Message.asks?, hid]
      | _ => rfl

omit [Handler η] in
theorem accepts_of_busy {h : Host η} {a : Act η} {id : RequestId}
    (hno : (h.receives? a).toList.countP (fun m => m.asks? = some id) = 0) :
    Moment.accepts ⟨h, a⟩ id = false := by
  unfold Moment.accepts
  cases hm : h.receives? a with
  | none => rfl
  | some m =>
      cases m with
      | request id' proxy method args =>
          rw [hm] at hno
          have hid : id' ≠ id := by simpa [Message.asks?] using hno
          simp [hid]
      | _ => rfl

/-- **A request that arrives is worked on until it is answered.** The answers that are queued and
the runs for an id, taken together, grow by the requests with that id that arrive, unless one comes
while there is a run for it; an answer that the channel refuses is queued again. -/
theorem Tidy.custody {h : Host η} (ht : h.Tidy) (hh : h.Sound) (hopen : h.endpoint.isOpen = true)
    {a : Act η} {id : RequestId}
    (hone : (h.receives? a).toList.countP (fun m => m.asks? = some id) + h.endpoint.working id ≤ 1) :
    (h.queues? a).toList.countP (fun o => o.message.replies? = some id) +
        (h.step a).1.endpoint.working id =
      h.endpoint.working id + (h.receives? a).toList.countP (fun m => m.asks? = some id) +
        (h.bounced? a).toList.countP fun p => p.1.answers? = some id := by
  have hbalance := ht.balance hh hopen a id
  have hreplying := hh.replying hopen a id
  -- a request is accepted if there is no run for it, and none comes if there is one
  cases hw : h.endpoint.working id with
  | zero =>
      rw [accepts_eq ((h.endpoint.working_eq_zero id).mp hw)] at hbalance
      omega
  | succ n =>
      rw [accepts_of_busy (by omega)] at hbalance
      simp only [Bool.false_eq_true, if_false] at hbalance
      omega

/-- A notice to stop comes from the caller, from the handler itself, or with the end. -/
theorem Tidy.told {h : Host η} (ht : h.Tidy) {a : Act η} {r : Run η} (hr : r ∈ h.endpoint.runs)
    (htells : h.tells a r = true) :
    (∃ serial, a = .op (.stop serial)) ∨ h.closes a = true ∨
      ∃ id, h.receives? a = some (.cancel id) ∧ r.request = some id := by
  unfold tells at htells
  split at htells
  · exact Or.inl ⟨_, rfl⟩
  · split at htells
    · next id hm =>
        obtain ⟨r', hrun, hserial⟩ := Option.map_eq_some_iff.mp (of_decide_eq_true htells)
        obtain ⟨hr', hid⟩ := (ht.runFor?_eq_some id r').mp hrun
        -- runs are known by their numbers
        have hsame : r' = r := by
          have h₁ := (ht.run?_eq_some r').mpr hr'
          rw [hserial, (ht.run?_eq_some r).mpr hr] at h₁
          exact (Option.some.inj h₁).symm
        exact Or.inr (Or.inr ⟨id, hm, hsame ▸ hid⟩)
    · exact Or.inr (Or.inl htells)

/-- A run that the caller cancels is told to stop. -/
theorem Tidy.tells_of_cancel {h : Host η} (ht : h.Tidy) {a : Act η} {r : Run η} {id : RequestId}
    (hr : r ∈ h.endpoint.runs) (hid : r.request = some id)
    (hm : h.receives? a = some (.cancel id)) : h.tells a r = true := by
  obtain ⟨-, frame, rfl, -⟩ := receives?_eq_some hm
  simp only [tells, hm, (ht.runFor?_eq_some id r).mpr ⟨hr, hid⟩]
  exact decide_eq_true rfl

end Host

/-! ## Whole runs -/

namespace Chronicle

variable [Handler η]

theorem startedIn_events (x : Chronicle η) :
    startedIn x.events = x.past.filterMap fun m => m.host.starts? m.act := by
  unfold events
  induction x.past with
  | nil => rfl
  | cons m past ih =>
      rw [List.flatMap_cons, startedIn_append, ih, List.filterMap_cons]
      have hm : startedIn m.events = (m.host.starts? m.act).toList :=
        (m.host.works_step m.act).started
      rw [hm]
      cases m.host.starts? m.act <;> rfl

/-- A chronicle in which the run `r` has begun. -/
def Begun (x : Chronicle η) (r : Run η) : Prop :=
  ∃ m ∈ x.past, ∃ r₀ b, m.host.starts? m.act = some r₀ ∧ r = r₀.tell b

theorem Begun.act {x : Chronicle η} {r : Run η} (h : x.Begun r) (a : Act η) :
    (x.act a).Begun r := by
  obtain ⟨m, hm, hr⟩ := h
  exact ⟨m, List.mem_append_left _ hm, hr⟩

/-- A run that goes on after an act has begun. -/
theorem begun_act (x : Chronicle η) (hx : ∀ r ∈ x.host.endpoint.runs, x.Begun r) (a : Act η) :
    ∀ r ∈ (x.act a).host.endpoint.runs, (x.act a).Begun r := by
  intro r hr
  rcases (Host.mem_runs_step x.host a r).mp hr with ⟨r₀, hr₀, -, rfl⟩ | hstart
  · obtain ⟨m, hm, r₁, b, hstart, rfl⟩ := hx r₀ hr₀
    refine ⟨m, List.mem_append_left _ hm, r₁, _, hstart, r₁.tell_tell b _⟩
  · exact ⟨⟨x.host, a⟩, List.mem_append_right _ List.mem_cons_self, r, false, hstart,
      r.tell_false.symm⟩

/-- Every run has begun with some act. -/
theorem begun_run (c : Config) (acts : List (Act η)) :
    let x := (ofConfig c).run acts
    (∀ r ∈ x.host.endpoint.runs, x.Begun r) ∧
      ∀ m ∈ x.past, ∀ r ∈ m.host.endpoint.runs, x.Begun r := by
  refine run_induction (P := fun x => (∀ r ∈ x.host.endpoint.runs, x.Begun r) ∧
    ∀ m ∈ x.past, ∀ r ∈ m.host.endpoint.runs, x.Begun r) ?_ ?_ acts
  · exact ⟨fun _ hr => absurd hr List.not_mem_nil, fun _ hm => absurd hm List.not_mem_nil⟩
  · rintro x a ⟨hnow, hpast⟩
    refine ⟨x.begun_act hnow a, fun m hm r hr => ?_⟩
    rcases List.mem_append.mp hm with hm | hm
    · exact (hpast m hm r hr).act a
    · rw [List.mem_singleton.mp hm] at hr
      exact (hnow r hr).act a

/-- What was asked at some moment is remembered. -/
theorem wishes_run (c : Config) (acts : List (Act η)) :
    let x := (ofConfig c).run acts
    ∀ m ∈ x.past, m.host.calls.map Asked.wish <+: x.host.calls.map Asked.wish := by
  refine run_induction (P := fun x => ∀ m ∈ x.past, m.host.calls.map Asked.wish <+:
    x.host.calls.map Asked.wish) (fun _ hm => absurd hm List.not_mem_nil) ?_ acts
  intro x a hx m hm
  have hstep := x.host.wishes_step a
  rcases List.mem_append.mp hm with hm | hm
  · exact (hx m hm).trans hstep
  · rw [List.mem_singleton.mp hm]
    exact hstep

/-- A call stays the same. -/
theorem wish_eq_of_past {c : Config} {acts : List (Act η)} {m : Moment η}
    (hm : m ∈ ((ofConfig c).run acts).past) {k : Nat} {q₀ q : Asked}
    (hq₀ : m.host.calls[k]? = some q₀) (hq : ((ofConfig c).run acts).host.calls[k]? = some q) :
    q.wish = q₀.wish := by
  obtain ⟨rest, hrest⟩ := wishes_run c acts m hm
  have hlt := (List.getElem?_eq_some_iff.mp hq₀).1
  have hk : (m.host.calls.map Asked.wish ++ rest)[k]? = some q₀.wish := by
    rw [List.getElem?_append_left (by rwa [List.length_map]), List.getElem?_map, hq₀]
    rfl
  rw [hrest, List.getElem?_map, hq] at hk
  exact Option.some.inj hk

/-- A run up to one of its moments is a run. -/
theorem exists_run_of_past {c : Config} {acts : List (Act η)} {before after : List (Moment η)}
    {m : Moment η} (h : ((ofConfig c).run acts).past = before ++ m :: after) :
    ∃ acts', (ofConfig c).run acts' = { host := m.host, past := before } := by
  induction acts using List.reverseRecOn generalizing after with
  | nil => simp [ofConfig] at h
  | append_singleton acts a ih =>
      rw [run_concat, past_act] at h
      rcases List.eq_nil_or_concat after with rfl | ⟨after', m', rfl⟩
      · -- the moment is the last one
        obtain ⟨hpast, hm⟩ := List.append_inj' h rfl
        obtain rfl := List.singleton_inj.mp hm
        exact ⟨acts, by rw [← hpast]⟩
      · have hpast : ((ofConfig c).run acts).past = before ++ m :: after' := by
          have h' : ((ofConfig c).run acts).past ++ [⟨((ofConfig c).run acts).host, a⟩] =
              (before ++ m :: after') ++ [m'] := by
            rw [h]
            simp
          exact (List.append_inj' h' rfl).1
        exact ih hpast

end Chronicle

end PeerRpc
