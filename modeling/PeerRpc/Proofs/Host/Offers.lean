import PeerRpc.Proofs.Host.Custody

/-!
# PeerRpc.Proofs.Host.Offers -- what the channel is offered, and what it refuses

The writer of an endpoint hands one message after another to the channel, and the channel carries
it, refuses it, or has come to its end. `Host.offers?` reads off an act the message that it hands
over, and `offers_step` keeps the account: a message that was queued has been offered or waits
behind those that have, so messages are offered in the order in which they were queued
(`Chronicle.queuedIn_eq`).

A refusal may queue a message, for an answer that is refused is replaced. The replacement is not
replaced again, so `Host.budget`, the messages that wait and once more the answers among them, never
grows by a refusal and falls with every offer (`budget_step`). That bounds what a channel that
refuses everything is offered (`budget_run`), and brings the writer to an empty queue
(`outbound_rounds`).
-/

namespace PeerRpc

variable {η : Type}

/-- The errors of a channel after which it can still be used. -/
theorem TransportError.isTerminal_eq_false {err : TransportError} :
    err.isTerminal = false ↔
      (∃ size max, err = .frameTooLarge size max) ∨ ∃ text, err = .other text := by
  cases err <;> simp [isTerminal]

/-- The message that tells a caller that its answer was refused. -/
def Outbound.standIn (id : RequestId) (err : TransportError) : Outbound :=
  { message := .replyErr id (Endpoint.undelivered err), lastResort := true }

/-- Whether a message is replaced when the channel refuses it: it is an answer. -/
def Outbound.isReply (o : Outbound) : Bool := o.answers?.isSome

/-- A message that stands in for another is not replaced. -/
@[simp] theorem Outbound.isReply_standIn (id : RequestId) (err : TransportError) :
    (standIn id err).isReply = false := rfl

/-! ## Refusals -/

namespace Endpoint

variable (e : Endpoint η) {o : Outbound} {id : RequestId} (err : TransportError)

/-- A refused request settles its call. -/
theorem undeliverable_of_asks (h : o.message.asks? = some id) :
    e.undeliverable o err = e.settle id fun _ => .error (.transport err) := by
  obtain ⟨m, lastResort⟩ := o
  cases m with
  | request id' proxy method args =>
      obtain rfl := Option.some.inj h
      rfl
  | _ => cases h

/-- A refused answer is replaced. -/
theorem undeliverable_of_answers (h : o.answers? = some id) :
    e.undeliverable o err = e.enqueue (.standIn id err) := by
  obtain ⟨m, lastResort⟩ := o
  cases lastResort with
  | true => cases h
  | false =>
      cases m with
      | reply id' v =>
          obtain rfl := Option.some.inj h
          rfl
      | replyErr id' err' =>
          obtain rfl := Option.some.inj h
          rfl
      | _ => cases h

/-- Nobody hears of any other message that is refused. -/
theorem undeliverable_of_other (h : o.message.asks? = none) (h' : o.answers? = none) :
    e.undeliverable o err = (e, []) := by
  obtain ⟨m, lastResort⟩ := o
  cases m with
  | request id' proxy method args => cases h
  | reply id' v =>
      cases lastResort with
      | true => rfl
      | false => cases h'
  | replyErr id' err' =>
      cases lastResort with
      | true => rfl
      | false => cases h'
  | _ => rfl

end Endpoint

namespace Host

/-- Calls that hear of nothing stay as they are. -/
theorem map_hear_nil (calls : List Asked) :
    calls.map (Asked.hear ([] : List (Event η))) = calls :=
  List.map_id calls

theorem follow_nil (h : Host η) (e : Endpoint η) :
    h.follow (e, []) = ({ h with endpoint := e }, []) := by
  unfold follow
  rw [map_hear_nil]

/-- Only the call that waits under the id hears of its result. -/
theorem Sound.map_hear_settled {h : Host η} (hh : h.Sound) {k : Nat} {q : Asked} {id : RequestId}
    (hq : h.calls[k]? = some q) (hid : q.call.id = some id) (hd : q.call.delivered = none)
    (r : CallResult) :
    h.calls.map (Asked.hear ([.settled id r] : List (Event η))) =
      h.calls.set k { q with call := { q.call with delivered := some r } } := by
  refine List.ext_getElem? fun i => ?_
  rw [List.getElem?_map, List.getElem?_set]
  by_cases hik : k = i
  · subst hik
    rw [if_pos rfl, if_pos (List.getElem?_eq_some_iff.mp hq).1, hq, Option.map_some]
    simp only [Asked.hear, List.foldl_cons, List.foldl_nil, Call.hear, hid, if_true, Call.deliver,
      hd]
    rfl
  · rw [if_neg hik]
    cases hq' : h.calls[i]? with
    | none => rfl
    | some q' =>
        have hne : q'.call.id ≠ some id := fun hid' => hik (hh.index_eq hq hq' hid hid')
        simp only [Option.map_some, Asked.hear, List.foldl_cons, List.foldl_nil, Call.hear,
          if_neg hne]

variable [Handler η]

section

variable {h : Host η} {o : Outbound} {err : TransportError}

theorem step_refused (hs : h.sending = some o) (herr : err.isTerminal = false) :
    h.step (.sent (.error err)) =
      ({ h with sending := none } : Host η).follow (h.endpoint.undeliverable o err) := by
  rw [step_sent_error hs, herr]
  rfl

/-- A refused request ends its call, and nothing else changes. -/
theorem Sound.refused_request (hh : h.Sound) {id : RequestId} (hs : h.sending = some o)
    (herr : err.isTerminal = false) (ho : o.message.asks? = some id)
    (hw : id ∈ h.endpoint.waiting) :
    ∃ (k : Nat) (q : Asked), h.calls[k]? = some q ∧ q.call.id = some id ∧
      q.call.delivered = none ∧
      (h.step (.sent (.error err))).1 =
        { h with
          sending := none
          endpoint :=
            { h.endpoint with pending := h.endpoint.pending.filter fun p => p.1 ≠ id }
          calls := h.calls.set k
            { q with call := { q.call with delivered := some (.error (.transport err)) } } } := by
  obtain ⟨k, q, hq, hid, hd⟩ := hh.exists_of_waiting hw
  refine ⟨k, q, hq, hid, hd, ?_⟩
  rw [step_refused hs herr, Endpoint.undeliverable_of_asks _ _ ho, follow, Endpoint.settle_fst,
    Endpoint.settle_snd, hh.find?_pending (List.mem_of_getElem? hq) hid hd]
  simp only [Option.toList_some, List.map_cons, List.map_nil]
  rw [hh.map_hear_settled hq hid hd]

/-- A refused request whose call has ended changes nothing. -/
theorem refused_late {id : RequestId} (hs : h.sending = some o) (herr : err.isTerminal = false)
    (ho : o.message.asks? = some id) (hw : id ∉ h.endpoint.waiting) :
    (h.step (.sent (.error err))).1 = { h with sending := none } := by
  have hnone : h.endpoint.pending.find? (fun p => p.1 = id) = none := by
    rw [← Option.not_isSome_iff_eq_none, Endpoint.find?_pending_isSome]
    exact hw
  have hsettle : h.endpoint.settle id (fun _ => .error (.transport err)) = (h.endpoint, []) := by
    simp only [Endpoint.settle, hnone]
  rw [step_refused hs herr, Endpoint.undeliverable_of_asks _ _ ho, hsettle, follow_nil]

/-- A refused answer is replaced, and nothing else changes. -/
theorem refused_reply {id : RequestId} (hs : h.sending = some o) (herr : err.isTerminal = false)
    (ho : o.answers? = some id) (hopen : h.endpoint.isOpen = true) :
    (h.step (.sent (.error err))).1 =
      { h with
        sending := none
        endpoint := { h.endpoint with outbound := h.endpoint.outbound ++ [.standIn id err] } } := by
  have henqueue : h.endpoint.enqueue (.standIn id err) =
      ({ h.endpoint with outbound := h.endpoint.outbound ++ [.standIn id err] },
        [.queued (.standIn id err)]) := by
    simp only [Endpoint.enqueue, hopen, if_true]
  rw [step_refused hs herr, Endpoint.undeliverable_of_answers _ _ ho, henqueue, follow]
  -- no call hears of a message that waits
  exact congrArg (fun calls => ({ h with
    sending := none
    calls := calls
    endpoint := { h.endpoint with outbound := h.endpoint.outbound ++ [.standIn id err] } } : Host η))
    (List.map_id h.calls)

/-- Any other message that is refused is dropped. -/
theorem refused_other (hs : h.sending = some o) (herr : err.isTerminal = false)
    (ho : o.message.asks? = none) (ho' : o.isReply = false) :
    (h.step (.sent (.error err))).1 = { h with sending := none } := by
  have hans : o.answers? = none := by
    cases hans : o.answers? with
    | none => rfl
    | some id => rw [Outbound.isReply, hans] at ho'; cases ho'
  rw [step_refused hs herr, Endpoint.undeliverable_of_other _ _ ho hans, follow_nil]

/-- A refusal after the end changes nothing. -/
theorem Sound.refused_closed (hh : h.Sound) (hs : h.sending = some o)
    (herr : err.isTerminal = false) (hclosed : h.endpoint.isOpen = false) :
    (h.step (.sent (.error err))).1 = { h with sending := none } := by
  cases ho : o.message.asks? with
  | some id =>
      refine refused_late hs herr ho fun hw => ?_
      rw [hh.isOpen_of_waiting hw] at hclosed
      cases hclosed
  | none =>
      cases hans : o.answers? with
      | none => exact refused_other hs herr ho (by rw [Outbound.isReply, hans]; rfl)
      | some id =>
          have henqueue : h.endpoint.enqueue (.standIn id err) = (h.endpoint, []) := by
            simp only [Endpoint.enqueue, hclosed]
            rfl
          rw [step_refused hs herr, Endpoint.undeliverable_of_answers _ _ hans, henqueue,
            follow_nil]

end

/-- An answer that is queued is replaced when it is refused, unless it is a replacement. -/
theorem answers?_of_queues {h : Host η} {a : Act η} {o : Outbound} {id : RequestId}
    (hq : h.queues? a = some o) (ho : o.message.replies? = some id) :
    o.answers? = some id ∨ ∃ err, o = .standIn id err := by
  cases posting hq with
  | replacement o' err id' bounced answers message =>
      subst message
      obtain rfl : id' = id := Option.some.inj ho
      exact Or.inr ⟨err, rfl⟩
  | outcome id' r out message =>
      subst message
      exact Or.inl ((Outbound.answers?_eq rfl).trans ho)
  | miss id' proxy message =>
      subst message
      exact Or.inl ((Outbound.answers?_eq rfl).trans ho)
  | _ => subst_vars; cases ho

/-! ## The account -/

omit [Handler η] in
/-- The message that an act hands to the channel. -/
def offers? (h : Host η) : Act η → Option Outbound
  | .take => if h.sending.isNone then h.endpoint.dequeue.map Prod.fst else none
  | _ => none

omit [Handler η] in
theorem offers?_eq_some {h : Host η} {a : Act η} {o : Outbound} :
    h.offers? a = some o ↔
      a = .take ∧ h.sending = none ∧ h.endpoint.isOpen = true ∧
        ∃ rest, h.endpoint.outbound = o :: rest := by
  cases a with
  | take =>
      simp only [offers?, Option.ite_none_right_eq_some, Option.isNone_iff_eq_none,
        Option.map_eq_some_iff, true_and]
      refine and_congr_right fun _ => ?_
      constructor
      · rintro ⟨⟨o', e⟩, hd, rfl⟩
        obtain ⟨hopen, rest, ho, -⟩ := Endpoint.dequeue_eq_some.mp hd
        exact ⟨hopen, rest, ho⟩
      · rintro ⟨hopen, rest, ho⟩
        exact ⟨(o, _), Endpoint.dequeue_eq_some.mpr ⟨hopen, rest, ho, rfl⟩, rfl⟩
  | _ => simp [offers?]

/-- The writer's turn hands a message over, or changes nothing. -/
theorem step_take_eq (h : Host η) :
    (∃ o rest, h.offers? .take = some o ∧ h.endpoint.outbound = o :: rest ∧
      h.step .take =
        ({ h with endpoint := { h.endpoint with outbound := rest }, sending := some o }, [])) ∨
    h.offers? .take = none ∧ h.step .take = (h, []) := by
  cases hoff : h.offers? .take with
  | some o =>
      obtain ⟨-, hs, hopen, rest, ho⟩ := offers?_eq_some.mp hoff
      exact Or.inl ⟨o, rest, rfl, ho, step_take hs hopen ho⟩
  | none =>
      refine Or.inr ⟨rfl, ?_⟩
      simp only [step]
      split
      · next o e hs hd =>
          obtain ⟨hopen, rest, ho, -⟩ := Endpoint.dequeue_eq_some.mp hd
          rw [offers?_eq_some.mpr ⟨rfl, hs, hopen, rest, ho⟩] at hoff
          cases hoff
      · rfl

/-- An answer of the channel adds to the messages that wait and takes none away. -/
theorem outbound_sent (h : Host η) (r : Except TransportError Unit) :
    (h.step (.sent r)).1.endpoint.outbound =
      h.endpoint.outbound ++ queuedIn (h.step (.sent r)).2 := by
  cases hs : h.sending with
  | none => cases r <;> simp [step, hs, queuedIn]
  | some o =>
      cases r with
      | ok u =>
          rw [step_sent_ok]
          exact (List.append_nil _).symm
      | error err =>
          rw [step_sent_error hs]
          split
          · exact h.endpoint.regular_close.outbound
          · exact (h.endpoint.regular_undeliverable o err).outbound

/-- After an answer the channel has nothing in its hands. -/
theorem sending_sent (h : Host η) (r : Except TransportError Unit) :
    (h.step (.sent r)).1.sending = none := by
  cases hs : h.sending with
  | none => cases r <;> simp [step, hs]
  | some o =>
      cases r with
      | ok u => rw [step_sent_ok]
      | error err =>
          rw [step_sent_error hs]
          rfl

/-- Only an act that hands a message over leaves one in the channel's hands. -/
theorem sending_of_not_offers {h : Host η} {a : Act η} {o : Outbound} (hoff : h.offers? a = none)
    (ho : (h.step a).1.sending = some o) : h.sending = some o := by
  cases a with
  | op op => exact (h.posts_operate op).sending ▸ ho
  | receive frame => exact (h.posts_receive frame).sending ▸ ho
  | take =>
      rcases h.step_take_eq with ⟨o', rest, hyes, -⟩ | ⟨-, hstep⟩
      · rw [hoff] at hyes
        cases hyes
      · rwa [hstep] at ho
  | sent r =>
      rw [sending_sent] at ho
      cases ho

/-- **The account of one act.** What waited and what is queued is what is offered and what waits. -/
theorem offers_step (h : Host η) (a : Act η) :
    h.endpoint.outbound ++ queuedIn (h.step a).2 =
      (h.offers? a).toList ++ (h.step a).1.endpoint.outbound := by
  cases a with
  | op o => exact (h.posts_operate o).outbound.symm
  | receive frame => exact (h.posts_receive frame).outbound.symm
  | take =>
      rcases h.step_take_eq with ⟨o, rest, hoff, ho, hstep⟩ | ⟨hoff, hstep⟩
      · rw [hoff, hstep, ho]
        exact List.append_nil _
      · rw [hoff, hstep]
        exact List.append_nil _
  | sent r => exact (h.outbound_sent r).symm

/-! ## The budget -/

omit [Handler η] in
/-- How many messages the channel can still be offered while nothing is queued but replacements. -/
def budget (h : Host η) : Nat :=
  h.sending.toList.countP Outbound.isReply +
    (h.endpoint.outbound.length + h.endpoint.outbound.countP Outbound.isReply)

/-- The messages that a refusal queues. -/
theorem queuedIn_refused {h : Host η} {o : Outbound} {err : TransportError}
    (hs : h.sending = some o) (herr : err.isTerminal = false) :
    queuedIn (h.step (.sent (.error err))).2 =
      if h.endpoint.isOpen then (o.answers?.map fun id => .standIn id err).toList else [] := by
  rw [step_refused hs herr]
  show queuedIn (h.endpoint.undeliverable o err).2 = _
  rw [Endpoint.queuedIn_undeliverable]
  cases o.answers? with
  | none => exact (ite_self []).symm
  | some id => rfl

theorem budget_refused {h : Host η} {o : Outbound} {err : TransportError}
    (hs : h.sending = some o) (herr : err.isTerminal = false) :
    (h.step (.sent (.error err))).1.budget ≤ h.budget := by
  have hnew : (queuedIn (h.step (.sent (.error err))).2).countP Outbound.isReply = 0 ∧
      (queuedIn (h.step (.sent (.error err))).2).length ≤ if o.isReply then 1 else 0 := by
    rw [queuedIn_refused hs herr, Outbound.isReply]
    cases o.answers? <;> cases h.endpoint.isOpen <;> simp
  simp only [budget, sending_sent, outbound_sent, hs, List.length_append, List.countP_append,
    Option.toList_none, Option.toList_some, List.countP_nil, List.countP_singleton]
  omega

/-- **An act that queues nothing but a replacement spends the budget.** -/
theorem budget_step (h : Host η) {a : Act η}
    (ha : queuedIn (h.step a).2 = [] ∨ ∃ r, a = .sent r) :
    (h.offers? a).toList.length + (h.step a).1.budget ≤ h.budget := by
  have hsame : ∀ {x : Host η × List (Event η)}, h.Posts x → queuedIn x.2 = [] →
      x.1.budget ≤ h.budget := by
    intro x hx hnone
    simp only [budget, hx.outbound, hx.sending, hnone, List.append_nil, Nat.le_refl]
  cases a with
  | op o =>
      have hnone := ha.resolve_right fun ⟨r, hr⟩ => by cases hr
      rw [show h.offers? (.op o) = none from rfl, Option.toList_none, List.length_nil, Nat.zero_add]
      exact hsame (h.posts_operate o) hnone
  | receive frame =>
      have hnone := ha.resolve_right fun ⟨r, hr⟩ => by cases hr
      rw [show h.offers? (.receive frame) = none from rfl, Option.toList_none, List.length_nil,
        Nat.zero_add]
      exact hsame (h.posts_receive frame) hnone
  | take =>
      rcases h.step_take_eq with ⟨o, rest, hoff, ho, hstep⟩ | ⟨hoff, hstep⟩
      · have hs := (offers?_eq_some.mp hoff).2.1
        rw [hoff, hstep]
        simp only [budget, hs, ho, Option.toList_some, Option.toList_none, List.countP_nil,
          List.length_cons, List.length_nil, List.countP_cons]
        omega
      · rw [hoff, hstep]
        exact Nat.le_of_eq (Nat.zero_add _)
  | sent r =>
      rw [show h.offers? (.sent r) = none from rfl, Option.toList_none, List.length_nil,
        Nat.zero_add]
      -- only a refusal queues anything
      have hquiet : queuedIn (h.step (.sent r)).2 = [] →
          (h.step (.sent r)).1.budget ≤ h.budget := by
        intro hnone
        unfold budget
        rw [sending_sent, outbound_sent, hnone, List.append_nil, Option.toList_none,
          List.countP_nil]
        omega
      cases hs : h.sending with
      | none =>
          refine hquiet ?_
          cases r <;> simp [step, hs, queuedIn]
      | some o =>
          cases r with
          | ok u => exact hquiet (by rw [step_sent_ok]; rfl)
          | error err =>
              cases herr : err.isTerminal with
              | false => exact budget_refused hs herr
              | true =>
                  refine hquiet ?_
                  rw [step_sent_error hs, herr]
                  exact h.endpoint.queuedIn_close

end Host

/-! ## Whole runs -/

namespace Chronicle

variable [Handler η]

/-- The messages that the channel has been offered, in order. -/
def offered (x : Chronicle η) : List Outbound := x.past.filterMap fun m => m.host.offers? m.act

/-- The same host, with no past. -/
def afresh (x : Chronicle η) : Chronicle η := { host := x.host }

/-- The writer's acts while the channel answers as listed. -/
def rounds (rs : List (Except TransportError Unit)) : List (Act η) :=
  rs.flatMap fun r => [.take, .sent r]

/-- Every message that was queued was queued by an act. -/
theorem exists_queues {c : Config} {acts : List (Act η)} {o : Outbound}
    (ho : o ∈ queuedIn ((ofConfig c).run acts).events) :
    ∃ m ∈ ((ofConfig c).run acts).past, m.host.queues? m.act = some o := by
  unfold queuedIn events at ho
  obtain ⟨ev, hev, hq⟩ := List.mem_filterMap.mp ho
  obtain ⟨m, hm, hev⟩ := List.mem_flatMap.mp hev
  have hsound := (invariant (P := Host.Sound) (Host.sound_ofConfig c)
    (fun h a hh => hh.step a) acts).2 m hm
  have hmem : o ∈ queuedIn (m.host.step m.act).2 := List.mem_filterMap.mpr ⟨ev, hev, hq⟩
  rw [hsound.queuedIn_step, Option.mem_toList] at hmem
  exact ⟨m, hm, hmem⟩

theorem offered_act (x : Chronicle η) (a : Act η) :
    (x.act a).offered = x.offered ++ (x.host.offers? a).toList := by
  simp only [offered, past_act, List.filterMap_append]
  cases hoff : x.host.offers? a <;> simp [hoff]

/-- What is done next does not depend on the past. -/
theorem run_afresh (x : Chronicle η) (acts : List (Act η)) :
    (x.run acts).host = (x.afresh.run acts).host ∧
      (x.run acts).past = x.past ++ (x.afresh.run acts).past := by
  induction acts using List.reverseRecOn with
  | nil => exact ⟨rfl, (List.append_nil _).symm⟩
  | append_singleton acts a ih =>
      obtain ⟨hhost, hpast⟩ := ih
      simp only [run_concat, host_act, past_act, hhost, hpast, List.append_assoc, and_self]

theorem offered_run (x : Chronicle η) (acts : List (Act η)) :
    (x.run acts).offered = x.offered ++ (x.afresh.run acts).offered := by
  rw [offered, (x.run_afresh acts).2, List.filterMap_append]
  rfl

/-- **The account of a run.** -/
theorem queuedIn_eq (c : Config) (acts : List (Act η)) :
    let x := (ofConfig c).run acts
    queuedIn x.events = x.offered ++ x.host.endpoint.outbound := by
  refine run_induction (P := fun x => queuedIn x.events = x.offered ++ x.host.endpoint.outbound)
    rfl (fun x a hx => ?_) acts
  rw [events_act, queuedIn_append, hx, List.append_assoc, x.host.offers_step a, offered_act,
    List.append_assoc, host_act]

/-- A closed endpoint offers nothing. -/
theorem offered_of_closed {x : Chronicle η} (hx : x.host.endpoint.isOpen = false)
    (acts : List (Act η)) :
    (x.run acts).offered = x.offered ∧ (x.run acts).host.endpoint.isOpen = false := by
  induction acts using List.reverseRecOn with
  | nil => exact ⟨rfl, hx⟩
  | append_singleton acts a ih =>
      obtain ⟨hoff, hclosed⟩ := ih
      rw [run_concat]
      refine ⟨?_, Host.isOpen_step_of_closed hclosed a⟩
      have hnone : (x.run acts).host.offers? a = none := by
        refine Option.eq_none_iff_forall_ne_some.mpr fun o ho => ?_
        rw [(Host.offers?_eq_some.mp ho).2.2.1] at hclosed
        cases hclosed
      rw [offered_act, hnone, hoff]
      exact List.append_nil _

/-- **The budget of a run.** While nothing is queued but replacements, the messages that the channel
is offered come out of the budget. -/
theorem budget_run (h : Host η) (acts : List (Act η)) :
    let y := ({ host := h } : Chronicle η).run acts
    (∀ m ∈ y.past, queuedIn m.events = [] ∨ ∃ r, m.act = .sent r) →
      y.offered.length + y.host.budget ≤ h.budget := by
  induction acts using List.reverseRecOn with
  | nil =>
      intro y _
      exact Nat.le_of_eq (Nat.zero_add _)
  | append_singleton acts a ih =>
      intro y hy
      have hrun : y = (({ host := h } : Chronicle η).run acts).act a := run_concat acts a _
      rw [hrun] at hy ⊢
      have hold := ih fun m hm => hy m (List.mem_append_left _ hm)
      have hlast := hy ⟨_, a⟩ (List.mem_append_right _ (List.mem_singleton_self _))
      have hact := Host.budget_step (({ host := h } : Chronicle η).run acts).host (a := a) hlast
      rw [offered_act, List.length_append, host_act]
      omega

/-- A round that leaves a message behind has offered one. -/
theorem offered_round {x : Chronicle η} (hs : x.host.sending = none)
    (r : Except TransportError Unit)
    (hopen : ((x.act .take).act (.sent r)).host.endpoint.isOpen = true)
    (hleft : ((x.act .take).act (.sent r)).host.endpoint.outbound ≠ []) :
    x.host.endpoint.isOpen = true ∧ x.host.endpoint.outbound ≠ [] ∧
      ((x.act .take).act (.sent r)).offered.length = x.offered.length + 1 := by
  have hopen' := x.host.isOpen_of_step .take (Host.isOpen_of_step _ (.sent r) hopen)
  rw [offered_act, offered_act]
  rcases x.host.step_take_eq with ⟨o, rest, hoff, ho, -⟩ | ⟨hoff, hstep⟩
  · refine ⟨hopen', by rw [ho]; exact List.cons_ne_nil _ _, ?_⟩
    rw [hoff]
    exact (congrArg List.length (List.append_nil _)).trans List.length_append
  · -- the writer found nothing, so the channel had nothing to answer
    have hnil : x.host.endpoint.outbound = [] := by
      cases ho : x.host.endpoint.outbound with
      | nil => rfl
      | cons o rest =>
          rw [Host.offers?_eq_some.mpr ⟨rfl, hs, hopen', rest, ho⟩] at hoff
          cases hoff
    refine absurd ?_ hleft
    show ((x.host.step .take).1.step (.sent r)).1.endpoint.outbound = []
    rw [hstep]
    cases r <;> simp [Host.step, hs, hnil]

/-- The writer's acts queue nothing but replacements. -/
theorem rounds_quiet (x : Chronicle η) (rs : List (Except TransportError Unit)) :
    (∀ m ∈ x.past, queuedIn m.events = [] ∨ ∃ r, m.act = .sent r) →
      ∀ m ∈ (x.run (rounds rs)).past, queuedIn m.events = [] ∨ ∃ r, m.act = .sent r := by
  induction rs generalizing x with
  | nil => exact fun hx => hx
  | cons r rs ih =>
      intro hx
      refine ih ((x.act .take).act (.sent r)) fun m hm => ?_
      simp only [past_act, List.append_assoc, List.mem_append, List.mem_singleton] at hm
      rcases hm with hm | rfl | rfl
      · exact hx m hm
      · refine Or.inl ?_
        show queuedIn (x.host.step .take).2 = []
        rcases x.host.step_take_eq with ⟨o, rest, -, -, hstep⟩ | ⟨-, hstep⟩ <;> rw [hstep] <;> rfl
      · exact Or.inr ⟨r, rfl⟩

/-- As long as the writer leaves messages behind, every round offers one. -/
theorem offered_rounds {x : Chronicle η} (hs : x.host.sending = none)
    (rs : List (Except TransportError Unit)) :
    (x.run (rounds rs)).host.sending = none ∧
      ((x.run (rounds rs)).host.endpoint.isOpen = true →
        (x.run (rounds rs)).host.endpoint.outbound ≠ [] →
          (x.run (rounds rs)).offered.length = x.offered.length + rs.length) := by
  induction rs using List.reverseRecOn with
  | nil => exact ⟨hs, fun _ _ => rfl⟩
  | append_singleton rs r ih =>
      obtain ⟨hs', hcount⟩ := ih
      have hrun : x.run (rounds (rs ++ [r])) = ((x.run (rounds rs)).act .take).act (.sent r) := by
        simp only [rounds, List.flatMap_append, run_append]
        rfl
      rw [hrun]
      refine ⟨Host.sending_sent _ r, fun hopen hleft => ?_⟩
      obtain ⟨hopen', hleft', hone⟩ := offered_round hs' r hopen hleft
      rw [hone, hcount hopen' hleft', List.length_append]
      rfl

/-- **The writer comes to an empty queue**, or to the end, within the budget. -/
theorem outbound_rounds {x : Chronicle η} (hs : x.host.sending = none)
    {rs : List (Except TransportError Unit)} (hrs : x.host.budget ≤ rs.length) :
    (x.run (rounds rs)).host.endpoint.isOpen = false ∨
      (x.run (rounds rs)).host.endpoint.outbound = [] := by
  cases hopen : (x.run (rounds rs)).host.endpoint.isOpen with
  | false => exact Or.inl rfl
  | true =>
      refine Or.inr (Classical.byContradiction fun hleft => ?_)
      have hcount := (offered_rounds hs rs).2 hopen hleft
      have hspent := budget_run x.host (rounds rs)
        (rounds_quiet x.afresh rs fun _ hm => absurd hm List.not_mem_nil)
      have hwaits : 0 < (x.run (rounds rs)).host.budget := by
        have := List.length_pos_iff.mpr hleft
        unfold Host.budget
        omega
      rw [offered_run, List.length_append] at hcount
      rw [(x.run_afresh (rounds rs)).1] at hwaits
      -- a round for each of `rs` and a message that is left are more than the budget
      have hspent' : (x.afresh.run (rounds rs)).offered.length +
          (x.afresh.run (rounds rs)).host.budget ≤ x.host.budget := hspent
      omega

/-! ## The theorem -/

/-- What the channel is offered, and what becomes of what it refuses. -/
structure Offering (x : Chronicle η) : Prop where
  /-- Messages are offered in the order in which they were queued, none twice, and none is left
  out: the others still wait. -/
  order : queuedIn x.events = x.offered ++ x.host.endpoint.outbound
  /-- Messages are offered only before the end. -/
  inTime : ∀ m ∈ x.past, m.host.offers? m.act ≠ none → m.host.endpoint.isOpen = true
  /-- An open endpoint whose channel has its hands free offers the first message that waits. -/
  next : x.host.endpoint.isOpen = true → x.host.sending = none → ∀ o rest,
    x.host.endpoint.outbound = o :: rest →
      (x.act .take).offered = x.offered ++ [o] ∧ (x.act .take).host.sending = some o
  /-- Two errors refuse a message without closing the channel. -/
  refusals : ∀ err : TransportError, err.isTerminal = false ↔
    (∃ size max, err = .frameTooLarge size max) ∨ ∃ text, err = .other text
  /-- Every answer that is queued is replaced if it is refused, unless it is a replacement. -/
  replies : ∀ o ∈ queuedIn x.events, ∀ id, o.message.replies? = some id →
    o.answers? = some id ∨ ∃ err, o = .standIn id err ∧ o.isReply = false
  /-- A refused request settles its own call with the error of the channel. -/
  request : ∀ o err id, x.host.sending = some o → err.isTerminal = false →
    o.message.asks? = some id → id ∈ x.host.endpoint.waiting →
      ∃ (k : Nat) (q : Asked), x.host.calls[k]? = some q ∧ q.call.id = some id ∧
        q.call.delivered = none ∧
        (x.act (.sent (.error err))).host =
          { x.host with
            sending := none
            endpoint :=
              { x.host.endpoint with
                pending := x.host.endpoint.pending.filter fun p => p.1 ≠ id }
            calls := x.host.calls.set k
              { q with call := { q.call with delivered := some (.error (.transport err)) } } }
  /-- A refused request whose call has ended changes nothing. -/
  late : ∀ o err id, x.host.sending = some o → err.isTerminal = false →
    o.message.asks? = some id → id ∉ x.host.endpoint.waiting →
      (x.act (.sent (.error err))).host = { x.host with sending := none }
  /-- A refused answer is replaced by an error reply that is itself not replaced. -/
  reply : ∀ o err id, x.host.sending = some o → err.isTerminal = false →
    o.answers? = some id → x.host.endpoint.isOpen = true →
      (x.act (.sent (.error err))).host =
          { x.host with
            sending := none
            endpoint :=
              { x.host.endpoint with
                outbound := x.host.endpoint.outbound ++
                  [{ message := .replyErr id
                      ⟨.handlerFailed, "Reply could not be delivered: " ++ err.text, none⟩
                     lastResort := true }] } }
  /-- Any other message that is refused is dropped, such as one that stands in for an answer. -/
  other : ∀ o err, x.host.sending = some o → err.isTerminal = false →
    o.message.asks? = none → o.isReply = false →
      (x.act (.sent (.error err))).host = { x.host with sending := none }
  /-- After the end a refusal changes nothing. -/
  closed : ∀ o err, x.host.sending = some o → err.isTerminal = false →
    x.host.endpoint.isOpen = false →
      (x.act (.sent (.error err))).host = { x.host with sending := none }
  /-- While nothing else is queued, the channel is offered the messages that wait, and once more at
  most the answers among them. -/
  bound : x.host.sending = none → ∀ acts,
    (∀ m ∈ (x.afresh.run acts).past, queuedIn m.events = [] ∨ ∃ r, m.act = .sent r) →
      (x.run acts).offered = x.offered ++ (x.afresh.run acts).offered ∧
        (x.afresh.run acts).offered.length + (x.run acts).host.endpoint.outbound.length ≤
          x.host.endpoint.outbound.length + x.host.endpoint.outbound.countP Outbound.isReply
  /-- After that many rounds of the writer the queue is empty, whatever the channel answers, unless
  the endpoint is closed. -/
  drained : x.host.sending = none → ∀ rs : List (Except TransportError Unit),
    x.host.endpoint.outbound.length + x.host.endpoint.outbound.countP Outbound.isReply ≤
        rs.length →
      (x.run (rounds rs)).host.endpoint.isOpen = false ∨
        (x.run (rounds rs)).host.endpoint.outbound = []
  /-- An error that ends the channel closes the endpoint, and nothing more is offered. -/
  ending : ∀ o err, x.host.sending = some o → err.isTerminal = true → ∀ acts,
    ((x.act (.sent (.error err))).run acts).host.endpoint.isOpen = false ∧
      ((x.act (.sent (.error err))).run acts).offered = x.offered

/-- **Every message that is queued is offered in its turn, and a refusal touches nothing but what
was refused**, over any channel and with any number of calls and handlers. -/
theorem offering (c : Config) (acts : List (Act η)) : Offering ((ofConfig c).run acts) := by
  have horder := queuedIn_eq c acts
  have hsound := (kept c acts).sound
  have hreplies : ∀ o ∈ queuedIn ((ofConfig c).run acts).events, ∀ id,
      o.message.replies? = some id →
        o.answers? = some id ∨ ∃ err, o = .standIn id err ∧ o.isReply = false := by
    intro o ho id hid
    obtain ⟨m, -, hq⟩ := exists_queues ho
    rcases Host.answers?_of_queues hq hid with hans | ⟨err, rfl⟩
    · exact Or.inl hans
    · exact Or.inr ⟨err, rfl, Outbound.isReply_standIn id err⟩
  generalize (ofConfig c).run acts = x at horder hsound hreplies
  refine {
    order := horder, replies := hreplies, refusals := fun _ => TransportError.isTerminal_eq_false,
    inTime := ?inTime, next := ?next, request := ?request, late := ?late,
    reply := ?reply, other := ?other, closed := ?closed, bound := ?bound, drained := ?drained,
    ending := ?ending }
  case inTime =>
    intro m _ hm
    obtain ⟨o, ho⟩ := Option.ne_none_iff_exists'.mp hm
    exact (Host.offers?_eq_some.mp ho).2.2.1
  case next =>
    intro hopen hs o rest ho
    rw [offered_act, Host.offers?_eq_some.mpr ⟨rfl, hs, hopen, rest, ho⟩, host_act,
      Host.step_take hs hopen ho]
    exact ⟨rfl, rfl⟩
  case request => exact fun o err id hs herr ho hw => hsound.refused_request hs herr ho hw
  case late => exact fun o err id hs herr ho hw => Host.refused_late hs herr ho hw
  case reply => exact fun o err id hs herr ho hopen => Host.refused_reply hs herr ho hopen
  case other => exact fun o err hs herr ho ho' => Host.refused_other hs herr ho ho'
  case closed => exact fun o err hs herr hclosed => hsound.refused_closed hs herr hclosed
  case bound =>
    intro hs acts hquiet
    refine ⟨x.offered_run acts, ?_⟩
    have hspent := budget_run x.host acts hquiet
    rw [(x.run_afresh acts).1]
    simp only [Host.budget, hs, Option.toList_none, List.countP_nil] at hspent
    show (({ host := x.host } : Chronicle η).run acts).offered.length +
      (({ host := x.host } : Chronicle η).run acts).host.endpoint.outbound.length ≤ _
    omega
  case drained =>
    intro hs rs hrs
    refine outbound_rounds hs ?_
    simpa only [Host.budget, hs, Option.toList_none, List.countP_nil, Nat.zero_add] using hrs
  case ending =>
    intro o err hs herr acts
    have hclosed : (x.act (.sent (.error err))).host.endpoint.isOpen = false := by
      rw [host_act, Host.step_sent_error hs, herr]
      exact x.host.endpoint.isOpen_close
    obtain ⟨hoff, hlast⟩ := offered_of_closed hclosed acts
    refine ⟨hlast, hoff.trans ?_⟩
    rw [offered_act]
    exact List.append_nil _

end Chronicle

end PeerRpc
