import PeerRpc.Proofs.Host.Accounts
import PeerRpc.Service

/-!
# PeerRpc.Proofs.Host.Settlement -- every call is settled once, by the first cause

A `Cause` is something that ends a call: the endpoint refuses it when it is made, an answer to it
arrives, the caller cancels it, lets go of it or finds it late, the channel refuses its request, or
the endpoint closes. `Moment.cause?` reads off an act, and off nothing that happens later, whether
it is a cause for a call, and `Asked.EndedBy` lists what that says of the act.

`settlement` says what becomes of causes in every run: the first one settles the call, later ones
change nothing, and a call waits in `pending` exactly until then. The peer may send any octets.
-/

namespace PeerRpc

/-! ## Causes -/

/-- What ends a call. -/
inductive Cause where
  /-- The endpoint refused the call when it was made. -/
  | refused (err : CallError)
  /-- A reply or an error reply with the id of the call arrived. -/
  | answered (reply : Except RemoteError Value)
  | cancelled
  /-- The caller looked for the result, and the time was over. -/
  | timedOut (limit : Duration)
  /-- The caller let go of the call. -/
  | dropped
  /-- The channel refused the request. -/
  | undeliverable (err : TransportError)
  /-- The endpoint closed. -/
  | closed

/-- What a cause makes of a call of the service `proxy`. -/
def Cause.result (proxy : ProxyId) : Cause → CallResult
  | refused err => .error err
  | answered (.ok v) => .ok v
  | answered (.error err) => .error (.ofRemote proxy err)
  | cancelled => .error .cancelled
  | timedOut limit => .error (.timeout limit)
  | dropped => .error .cancelled
  | undeliverable err => .error (.transport err)
  | closed => .error .disconnected

variable {η : Type}

/-- The answer in a message to the request with this id. -/
def Message.answers? (id : Option RequestId) : Message → Option (Except RemoteError Value)
  | reply id' v => if id = some id' then some (.ok v) else none
  | replyErr id' err => if id = some id' then some (.error err) else none
  | _ => none

/-- Whether the message is the request with this id. -/
def Message.isRequest (id : Option RequestId) : Message → Bool
  | request id' .. => id = some id'
  | _ => false

theorem Message.answers?_same {m : Message} {id id' : Option RequestId}
    {r r' : Except RemoteError Value} (h : m.answers? id = some r) (h' : m.answers? id' = some r') :
    ∃ i, id = some i ∧ id' = some i := by
  cases m with
  | reply i v =>
      exact ⟨i, (Option.ite_none_right_eq_some.mp h).1, (Option.ite_none_right_eq_some.mp h').1⟩
  | replyErr i err =>
      exact ⟨i, (Option.ite_none_right_eq_some.mp h).1, (Option.ite_none_right_eq_some.mp h').1⟩
  | _ => cases h

theorem Message.isRequest_same {m : Message} {id id' : Option RequestId}
    (h : m.isRequest id = true) (h' : m.isRequest id' = true) :
    ∃ i, id = some i ∧ id' = some i := by
  cases m with
  | request i proxy method args => exact ⟨i, of_decide_eq_true h, of_decide_eq_true h'⟩
  | _ => cases h

/-- Whether and how an act at a host ends the call `k`, which was made before. -/
def Asked.cause? (h : Host η) (k : Nat) (q : Asked) : Act η → Option Cause
  | .op (.cancel k') => if k' = k then some .cancelled else none
  | .op (.drop k') => if k' = k && !q.call.settled then some .dropped else none
  | .op (.poll k') =>
    match q.call.limit with
    | some d => if k' = k && q.call.started + d.ticks ≤ h.now then some (.timedOut d) else none
    | none => none
  | .op .close => if h.endpoint.isOpen then some .closed else none
  | .receive frame =>
    match h.endpoint.isOpen, Codec.decodeMessage frame with
    | true, .ok m => (m.answers? q.call.id).map .answered
    | _, _ => none
  | .sent (.error err) =>
    match h.sending with
    | none => none
    | some o =>
      if err.isTerminal then if h.endpoint.isOpen then some .closed else none
      else if o.message.isRequest q.call.id then some (.undeliverable err) else none
  | _ => none

/-- Whether and how an act ends the call `k`, which was made before or is made by the act. -/
def Moment.cause? (m : Moment η) (k : Nat) : Option Cause :=
  match m.host.calls[k]? with
  | some q => q.cause? m.host k m.act
  | none => if k = m.host.calls.length then (m.host.refused? m.act).map .refused else none

/-- The ways in which an act ends a call that was made before, so that no proof has to take
`Asked.cause?` apart again. -/
inductive Asked.EndedBy (h : Host η) (k : Nat) (q : Asked) : Act η → Cause → Prop
  | cancelled : q.EndedBy h k (.op (.cancel k)) .cancelled
  | dropped (held : q.call.settled = false) : q.EndedBy h k (.op (.drop k)) .dropped
  | timedOut (d : Duration) (limit : q.call.limit = some d)
      (late : q.call.started + d.ticks ≤ h.now) : q.EndedBy h k (.op (.poll k)) (.timedOut d)
  | closed (isOpen : h.endpoint.isOpen = true) : q.EndedBy h k (.op .close) .closed
  | answered (frame : Bytes) (m : Message) (reply : Except RemoteError Value)
      (isOpen : h.endpoint.isOpen = true) (decodes : Codec.decodeMessage frame = .ok m)
      (answers : m.answers? q.call.id = some reply) :
      q.EndedBy h k (.receive frame) (.answered reply)
  /-- The channel is at its end. -/
  | lost (o : Outbound) (err : TransportError) (sending : h.sending = some o)
      (terminal : err.isTerminal = true) (isOpen : h.endpoint.isOpen = true) :
      q.EndedBy h k (.sent (.error err)) .closed
  | undeliverable (o : Outbound) (err : TransportError) (sending : h.sending = some o)
      (goesOn : ¬err.isTerminal = true) (request : o.message.isRequest q.call.id = true) :
      q.EndedBy h k (.sent (.error err)) (.undeliverable err)

theorem Asked.endedBy {h : Host η} {k : Nat} {q : Asked} {a : Act η} {z : Cause}
    (hz : q.cause? h k a = some z) : q.EndedBy h k a z := by
  cases a with
  | op o =>
      cases o with
      | cancel k' =>
          obtain ⟨rfl, heq⟩ := Option.ite_none_right_eq_some.mp hz
          obtain rfl := Option.some.inj heq
          exact .cancelled
      | drop k' =>
          obtain ⟨hk, heq⟩ := Option.ite_none_right_eq_some.mp hz
          obtain rfl := Option.some.inj heq
          obtain ⟨rfl, held⟩ : k' = k ∧ q.call.settled = false := by simpa using hk
          exact .dropped held
      | poll k' =>
          simp only [cause?] at hz
          split at hz
          · next d limit =>
              obtain ⟨hk, heq⟩ := Option.ite_none_right_eq_some.mp hz
              obtain rfl := Option.some.inj heq
              obtain ⟨rfl, late⟩ : k' = k ∧ q.call.started + d.ticks ≤ h.now := by simpa using hk
              exact .timedOut d limit late
          · cases hz
      | close =>
          obtain ⟨isOpen, heq⟩ := Option.ite_none_right_eq_some.mp hz
          obtain rfl := Option.some.inj heq
          exact .closed isOpen
      | _ => cases hz
  | receive frame =>
      simp only [cause?] at hz
      split at hz
      · next m isOpen decodes =>
          obtain ⟨reply, answers, rfl⟩ := Option.map_eq_some_iff.mp hz
          exact .answered frame m reply isOpen decodes answers
      · cases hz
  | take => cases hz
  | sent r =>
      cases r with
      | ok u => cases hz
      | error err =>
          simp only [cause?] at hz
          split at hz
          · cases hz
          · next o sending =>
              split at hz
              · next terminal =>
                  obtain ⟨isOpen, heq⟩ := Option.ite_none_right_eq_some.mp hz
                  obtain rfl := Option.some.inj heq
                  exact .lost o err sending terminal isOpen
              · next goesOn =>
                  obtain ⟨request, heq⟩ := Option.ite_none_right_eq_some.mp hz
                  obtain rfl := Option.some.inj heq
                  exact .undeliverable o err sending goesOn request

/-! ## One act -/

namespace Host

/-- A step of one of the calls ends at most that call. -/
theorem Agrees.resultFor?_onCall {h : Host η} (hh : h.Agrees) {k : Nat} {q : Asked} {id : RequestId}
    (hq : h.calls[k]? = some q) (hid : q.call.id = some id) (k' : Nat)
    {f : Call → Call × Endpoint.Step η} {r : Call → Option CallResult}
    (hf : ∀ c, resultFor? (f c).2.2 id = if c.id = some id then r c else none) :
    resultFor? (h.onCall k' f).2 id = if k' = k then r q.call else none := by
  unfold Host.onCall
  cases hq' : h.calls[k']? with
  | none =>
      have hne : k' ≠ k := by
        rintro rfl
        rw [hq] at hq'
        cases hq'
      rw [if_neg hne]
      rfl
  | some q' =>
      show resultFor? (f q'.call).2.2 id = _
      rw [hf]
      by_cases hk : k' = k
      · subst hk
        rw [hq] at hq'
        obtain rfl := Option.some.inj hq'
        rw [if_pos hid, if_pos rfl]
      · rw [if_neg hk, if_neg]
        exact fun hid' => hk (hh.index_eq hq' hq hid' hid)

variable [Handler η]

/-! The call `q` waits under the id `id` in the next lemmas. -/

section

variable {h : Host η} {k : Nat} {q : Asked} {id : RequestId}

/-- A new call has an id of its own. -/
theorem Agrees.resultFor?_asks (hh : h.Agrees) (hq : h.calls[k]? = some q)
    (hid : q.call.id = some id) {a : Act η} (ha : a.asks = true) :
    resultFor? (h.step a).2 id = none := by
  rcases h.step_asks ha with ⟨hs, -⟩ | ⟨_, _, _, _, hs, -⟩ | ⟨hn, _, _, _, hs, -⟩
  · rw [hs]
    rfl
  · rw [hs]
    rfl
  · rw [hs]
    refine (resultFor?_request ..).trans (if_neg ?_)
    rintro rfl
    exact hh.fresh hn (List.mem_filterMap.mpr
      ⟨q.account, List.mem_map_of_mem (List.mem_of_getElem? hq), hid⟩)

theorem Agrees.resultFor?_poll (hh : h.Agrees) (hq : h.calls[k]? = some q)
    (hid : q.call.id = some id) (hd : q.call.delivered = none) (k' : Nat) :
    resultFor? (h.step (.op (.poll k'))).2 id =
      (q.cause? h k (.op (.poll k'))).map (Cause.result q.proxy) := by
  have hfind := hh.find?_pending (List.mem_of_getElem? hq) hid hd
  show resultFor? (h.onCall k' fun c => (c.poll h.now h.endpoint).2).2 id = _
  rw [hh.resultFor?_onCall hq hid k' fun c => Endpoint.resultFor?_poll hfind c h.now]
  simp only [Asked.cause?, hd]
  cases q.call.limit with
  | none => exact ite_self none
  | some d =>
      by_cases hk : k' = k
      · by_cases hlate : q.call.started + d.ticks ≤ h.now
        · simp [hk, hlate, Cause.result]
        · simp [hk, hlate]
      · simp [hk]

omit [Handler η] in
theorem Agrees.resultFor?_close (hh : h.Agrees) (hq : h.calls[k]? = some q)
    (hid : q.call.id = some id) (hd : q.call.delivered = none) :
    resultFor? h.endpoint.close.2 id =
      if h.endpoint.isOpen then some (.error .disconnected) else none := by
  have hwait := Endpoint.mem_waiting_of_find? (hh.find?_pending (List.mem_of_getElem? hq) hid hd)
  cases hopen : h.endpoint.isOpen with
  | true =>
      rw [Endpoint.resultFor?_close hopen, if_pos hwait]
      rfl
  | false =>
      rw [Endpoint.close_of_closed hopen]
      rfl

theorem Agrees.resultFor?_op (hh : h.Agrees) (hq : h.calls[k]? = some q)
    (hid : q.call.id = some id) (hd : q.call.delivered = none) (o : Op η) :
    resultFor? (h.step (.op o)).2 id = (q.cause? h k (.op o)).map (Cause.result q.proxy) := by
  have hfind := hh.find?_pending (List.mem_of_getElem? hq) hid hd
  cases o with
  | invoke i method args => exact hh.resultFor?_asks hq hid rfl
  | request proxy method args => exact hh.resultFor?_asks hq hid rfl
  | cancel k' =>
      show resultFor? (h.onCall k' fun c => (c, (c.cancel h.endpoint).2)).2 id = _
      rw [hh.resultFor?_onCall hq hid k' fun c => Endpoint.resultFor?_cancelWith hfind c .cancelled]
      simp only [Asked.cause?]
      split <;> rfl
  | drop k' =>
      show resultFor? (h.onCall k' fun c => (c, c.drop h.endpoint)).2 id = _
      rw [hh.resultFor?_onCall hq hid k' fun c => Endpoint.resultFor?_drop hfind c]
      simp only [Asked.cause?]
      cases q.call.settled <;> by_cases hk : k' = k <;> simp [hk, Cause.result]
  | poll k' => exact hh.resultFor?_poll hq hid hd k'
  | close =>
      show resultFor? h.endpoint.close.2 id = _
      rw [hh.resultFor?_close hq hid hd]
      simp only [Asked.cause?]
      split <;> rfl
  | notify i method args =>
      simp only [Host.step, Host.operate, Host.attempt]
      split
      · rfl
      · next s hs => exact resultFor?_of_silent (Endpoint.settledIn_notify hs) id
  | notifyProxy proxy method args =>
      simp only [Host.step, Host.operate, Host.attempt]
      split
      · rfl
      · next s hs => exact resultFor?_of_silent (Endpoint.settledIn_notifyProxy hs) id
  | set i handler =>
      simp only [Host.step, Host.operate]
      split <;> rfl
  | conclude serial o =>
      simp only [Host.step, Host.operate]
      split <;> rfl
  | stop serial => exact resultFor?_of_silent (Endpoint.settledIn_fire _ _) id
  | reap serial =>
      simp only [Host.step, Host.operate]
      split
      · rfl
      · exact resultFor?_of_silent (Endpoint.settledIn_finish _ _ _) id
  | _ => rfl

theorem Agrees.resultFor?_receive (hh : h.Agrees) (hq : h.calls[k]? = some q)
    (hid : q.call.id = some id) (hd : q.call.delivered = none) (frame : Bytes) :
    resultFor? (h.step (.receive frame)).2 id =
      (q.cause? h k (.receive frame)).map (Cause.result q.proxy) := by
  have hfind := hh.find?_pending (List.mem_of_getElem? hq) hid hd
  show resultFor? (h.endpoint.receive frame).2 id = _
  cases hopen : h.endpoint.isOpen with
  | false =>
      simp only [Endpoint.receive, Asked.cause?, hopen, Bool.false_eq_true, if_false]
      rfl
  | true =>
      simp only [Endpoint.receive, Asked.cause?, hopen, if_true]
      cases Codec.decodeMessage frame with
      | error err => rfl
      | ok m =>
          dsimp only
          rw [Endpoint.resultFor?_dispatch hfind, hid]
          cases m with
          | reply id' v =>
              simp only [Message.answers?, Option.some.injEq, @eq_comm _ id id']
              split <;> rfl
          | replyErr id' err =>
              simp only [Message.answers?, Option.some.injEq, @eq_comm _ id id']
              split <;> rfl
          | _ => rfl

theorem Agrees.resultFor?_sent (hh : h.Agrees) (hq : h.calls[k]? = some q)
    (hid : q.call.id = some id) (hd : q.call.delivered = none) (r : Except TransportError Unit) :
    resultFor? (h.step (.sent r)).2 id =
      (q.cause? h k (.sent r)).map (Cause.result q.proxy) := by
  cases hs : h.sending with
  | none => cases r <;> simp [Host.step, Asked.cause?, hs, resultFor?]
  | some o =>
      cases r with
      | ok u => simp [Host.step, Asked.cause?, hs, resultFor?]
      | error err =>
          have hfind := hh.find?_pending (List.mem_of_getElem? hq) hid hd
          rw [Host.step_sent_error hs, Host.follow]
          simp only [Asked.cause?, hs]
          split
          · rw [hh.resultFor?_close hq hid hd]
            split <;> rfl
          · rw [Endpoint.resultFor?_undeliverable hfind, hid]
            cases o.message with
            | request id' proxy method args =>
                simp only [Message.isRequest, Option.some.injEq, @eq_comm _ id id',
                  decide_eq_true_eq]
                split <;> rfl
            | _ => rfl

/-- **An act gives a call that waits exactly the result of its cause.** -/
theorem Agrees.resultFor?_step (hh : h.Agrees) (hq : h.calls[k]? = some q)
    (hid : q.call.id = some id) (hd : q.call.delivered = none) (a : Act η) :
    resultFor? (h.step a).2 id = (q.cause? h k a).map (Cause.result q.proxy) := by
  cases a with
  | op o => exact hh.resultFor?_op hq hid hd o
  | receive frame => exact hh.resultFor?_receive hq hid hd frame
  | take =>
      simp only [Host.step]
      split <;> rfl
  | sent r => exact hh.resultFor?_sent hq hid hd r

end

/-- **What an act makes of an earlier call.** -/
theorem Agrees.call_step {h : Host η} (hh : h.Agrees) {k : Nat} {q : Asked}
    (hq : h.calls[k]? = some q) (a : Act η) :
    ∃ q', (h.step a).1.calls[k]? = some q' ∧ q'.account = q.account.hear (h.step a).2 ∧
      q'.call.delivered = q.call.delivered.or ((q.cause? h k a).map (Cause.result q.proxy)) := by
  have hmem : q ∈ h.calls := List.mem_of_getElem? hq
  obtain ⟨new, hacc, -⟩ := hh.accounts_step a
  have hk : h.accounts[k]? = some q.account := by rw [accounts_getElem?, hq]; rfl
  have hk' : (h.step a).1.accounts[k]? = some (q.account.hear (h.step a).2) := by
    have hmap : (h.accounts.map (Account.hear (h.step a).2))[k]? =
        some (q.account.hear (h.step a).2) := by
      rw [List.getElem?_map, hk]
      rfl
    rw [hacc, List.getElem?_append_left (List.getElem?_eq_some_iff.mp hmap).1, hmap]
  rw [accounts_getElem?] at hk'
  obtain ⟨q', hq', hacc'⟩ := Option.map_eq_some_iff.mp hk'
  refine ⟨q', hq', hacc', (congrArg Account.result hacc').trans ?_⟩
  simp only [Account.hear, Asked.account]
  cases hd : q.call.delivered with
  | some r => rfl
  | none =>
      cases hid : q.call.id with
      | none => exact absurd hd (hh.failed _ (List.mem_map_of_mem hmem) hid)
      | some id =>
          rw [Option.bind_some, hh.resultFor?_step hq hid hd a]

/-- **What an act makes of a call that was not made before.** -/
theorem Sound.call_new {h : Host η} (hh : h.Sound) {k : Nat} (hk : h.calls[k]? = none)
    (a : Act η) :
    (h.step a).1.calls[k]? = none ∧ Moment.cause? ⟨h, a⟩ k = none ∨
    ∃ q', (h.step a).1.calls[k]? = some q' ∧ h.NewAccount a q'.account ∧
      q'.call.delivered = (Moment.cause? ⟨h, a⟩ k).map (Cause.result q'.proxy) := by
  have hle : h.calls.length ≤ k := List.getElem?_eq_none_iff.mp hk
  have hcause : Moment.cause? ⟨h, a⟩ k =
      if k = h.calls.length then (h.refused? a).map .refused else none := by
    simp only [Moment.cause?, hk]
  have hlen : (h.accounts.map (Account.hear (h.step a).2)).length = h.calls.length := by
    rw [List.length_map, accounts, List.length_map]
  obtain ⟨new, hacc, hnew⟩ := hh.accounts_step a
  have hget : ((h.step a).1.calls[k]?).map Asked.account = new[k - h.calls.length]? := by
    rw [← accounts_getElem?, hacc, List.getElem?_append_right (hlen ▸ hle), hlen]
  rw [hcause]
  rcases hnew with ⟨rfl, hr⟩ | ⟨t, rfl, ht⟩
  · refine Or.inl ⟨Option.map_eq_none_iff.mp hget, ?_⟩
    rw [hr]
    exact ite_self none
  · by_cases hlast : k = h.calls.length
    · rw [if_pos hlast]
      rw [hlast, Nat.sub_self] at hget
      obtain ⟨q', hq', rfl⟩ := Option.map_eq_some_iff.mp hget
      refine Or.inr ⟨q', hlast ▸ hq', ht, ht.result.trans ?_⟩
      cases h.refused? a <;> rfl
    · rw [if_neg hlast]
      have hout : ([t] : List Account)[k - h.calls.length]? = none :=
        List.getElem?_eq_none_iff.mpr (by simp only [List.length_singleton]; omega)
      rw [hout] at hget
      exact Or.inl ⟨Option.map_eq_none_iff.mp hget, rfl⟩

/-- Calls are settled one by one, and only such as wait or are made just then. -/
theorem Sound.settledIn_step {h : Host η} (hh : h.Sound) (a : Act η) :
    (settledIn (h.step a).2).Nodup ∧
    ∀ id ∈ settledIn (h.step a).2, id ∈ h.endpoint.waiting ∨
      h.endpoint.issued < id.val.toNat ∧ ∃ q ∈ (h.step a).1.calls, q.call.id = some id := by
  cases ha : a.asks with
  | false =>
      have hb := (h.settles_step ha).balanced
      exact ⟨hb.once hh.nodup_waiting, fun id hid => Or.inl (hb.settled id hid)⟩
  | true =>
      rcases h.step_asks ha with ⟨hs, -⟩ | ⟨_, _, _, _, hs, -⟩ | ⟨hn, proxy, method, args, hs, -⟩
      · rw [hs]
        exact ⟨List.nodup_nil, nofun⟩
      · rw [hs]
        exact ⟨List.nodup_nil, nofun⟩
      · rw [hs]
        show (settledIn (h.endpoint.request proxy method args).2.2).Nodup ∧
          ∀ id ∈ settledIn (h.endpoint.request proxy method args).2.2, _
        cases hr : h.endpoint.refusal? proxy method args with
        | none =>
            rw [Endpoint.request_of_none hr]
            exact ⟨List.nodup_nil, nofun⟩
        | some err =>
            have hsettled : settledIn (h.endpoint.request proxy method args).2.2 =
                [⟨h.endpoint.nextId⟩] := by
              rw [Endpoint.request_of_refusal hr]
              rfl
            rw [hsettled]
            refine ⟨List.nodup_singleton _, fun id hid => Or.inr ?_⟩
            obtain rfl := List.mem_singleton.mp hid
            have hmem : h.newAccount proxy method args ∈ (h.begin proxy method args
                (h.endpoint.request proxy method args)).1.accounts := by
              rw [accounts_begin hh.toAgrees hn]
              exact List.mem_append_right _ List.mem_cons_self
            obtain ⟨q, hq, hacc⟩ := List.mem_map.mp hmem
            have := Endpoint.toNat_nextId hn
            refine ⟨?_, q, hq, congrArg Account.id hacc⟩
            dsimp only
            omega

end Host

/-! ## Whole runs -/

namespace Chronicle

variable [Handler η]

/-- What a chronicle and its calls have to do with each other. -/
structure Kept (x : Chronicle η) : Prop where
  sound : x.host.Sound
  first : ∀ k q, x.host.calls[k]? = some q →
    q.call.delivered = (x.past.findSome? (·.cause? k)).map (Cause.result q.proxy)
  /-- Nothing ends a call that was not made. -/
  early : ∀ k, x.host.calls[k]? = none → x.past.findSome? (·.cause? k) = none
  told : ∀ q ∈ x.host.calls, ∀ id, q.call.id = some id →
    resultFor? x.events id = q.call.delivered
  known : ∀ id ∈ settledIn x.events, ∃ q ∈ x.host.calls, q.call.id = some id
  once : (settledIn x.events).Nodup

/-- The first cause after one more act. -/
theorem findSome?_act (x : Chronicle η) (a : Act η) (k : Nat) :
    (x.act a).past.findSome? (·.cause? k) =
      (x.past.findSome? (·.cause? k)).or (Moment.cause? ⟨x.host, a⟩ k) := by
  rw [past_act, List.findSome?_append, List.findSome?_singleton]

/-- No call is forgotten. -/
theorem Kept.exists_act {x : Chronicle η} (hx : x.Kept) (a : Act η) {id : RequestId}
    (h : ∃ q ∈ x.host.calls, q.call.id = some id) :
    ∃ q ∈ (x.act a).host.calls, q.call.id = some id := by
  obtain ⟨q, hq, hid⟩ := h
  obtain ⟨k, hk⟩ := List.mem_iff_getElem?.mp hq
  obtain ⟨q', hq', hacc, -⟩ := hx.sound.call_step hk a
  exact ⟨q', List.mem_of_getElem? hq', (congrArg Account.id hacc).trans hid⟩

/-- An id that is new has not been settled before. -/
theorem Kept.not_settled {x : Chronicle η} (hx : x.Kept) {id : RequestId}
    (hnew : x.host.endpoint.issued < id.val.toNat) : resultFor? x.events id = none := by
  rw [resultFor?_eq_none_iff]
  intro hold
  obtain ⟨q, hq, hid⟩ := hx.known id hold
  have hle := hx.sound.issued id (List.mem_filterMap.mpr ⟨q.account, List.mem_map_of_mem hq, hid⟩)
  omega

/-- Every call has the result of which its id has been told. -/
theorem Kept.told_act {x : Chronicle η} (hx : x.Kept) (a : Act η) {q' : Asked}
    (hmem : q' ∈ (x.act a).host.calls) {id : RequestId} (hid : q'.call.id = some id) :
    resultFor? (x.act a).events id = q'.call.delivered := by
  obtain ⟨k, hq'⟩ := List.mem_iff_getElem?.mp hmem
  rw [events_act, resultFor?_append]
  cases hq : x.host.calls[k]? with
  | some q =>
      obtain ⟨q'', hq'', hacc, -⟩ := hx.sound.call_step hq a
      obtain rfl := Option.some.inj (hq'.symm.trans hq'')
      have hid' : q.call.id = some id := (congrArg Account.id hacc).symm.trans hid
      rw [hx.told q (List.mem_of_getElem? hq) id hid']
      refine Eq.trans ?_ (congrArg Account.result hacc).symm
      simp only [Account.hear, Asked.account, hid', Option.bind_some]
  | none =>
      rcases hx.sound.call_new hq a with ⟨hnone, -⟩ | ⟨q'', hq'', hnew, -⟩
      · cases hq'.symm.trans hnone
      · obtain rfl := Option.some.inj (hq'.symm.trans hq'')
        rw [hx.not_settled (hnew.fresh id hid), Option.none_or]
        exact hnew.told id hid

theorem Kept.act {x : Chronicle η} (hx : x.Kept) (a : Act η) : (x.act a).Kept where
  sound := hx.sound.step a
  first := by
    intro k q' hq'
    rw [findSome?_act]
    cases hq : x.host.calls[k]? with
    | some q =>
        obtain ⟨q'', hq'', hacc, hd⟩ := hx.sound.call_step hq a
        obtain rfl := Option.some.inj (hq'.symm.trans hq'')
        have hproxy : q'.proxy = q.proxy := congrArg Account.proxy hacc
        have hcause : Moment.cause? ⟨x.host, a⟩ k = q.cause? x.host k a := by
          simp only [Moment.cause?, hq]
        rw [hd, hx.first k q hq, hproxy, hcause, Option.map_or]
    | none =>
        rw [hx.early k hq, Option.none_or]
        rcases hx.sound.call_new hq a with ⟨hnone, -⟩ | ⟨q'', hq'', -, hd⟩
        · cases hq'.symm.trans hnone
        · obtain rfl := Option.some.inj (hq'.symm.trans hq'')
          exact hd
  early := by
    intro k hk
    rw [findSome?_act]
    cases hq : x.host.calls[k]? with
    | some q =>
        obtain ⟨q', hq', -⟩ := hx.sound.call_step hq a
        cases hk.symm.trans hq'
    | none =>
        rw [hx.early k hq, Option.none_or]
        rcases hx.sound.call_new hq a with ⟨-, hcause⟩ | ⟨q', hq', -⟩
        · exact hcause
        · cases hk.symm.trans hq'
  told := fun _ hmem _ hid => hx.told_act a hmem hid
  known := by
    intro id hid
    rw [events_act, settledIn_append] at hid
    rcases List.mem_append.mp hid with hid | hid
    · exact hx.exists_act a (hx.known id hid)
    · rcases (hx.sound.settledIn_step a).2 id hid with hw | ⟨-, hnew⟩
      · obtain ⟨⟨i, proxy⟩, hp, rfl⟩ := List.mem_map.mp hw
        obtain ⟨q, hq, hid', -⟩ := (hx.sound.mem_pending i proxy).mp hp
        exact hx.exists_act a ⟨q, hq, hid'⟩
      · exact hnew
  once := by
    rw [events_act, settledIn_append, List.nodup_append]
    refine ⟨hx.once, (hx.sound.settledIn_step a).1, ?_⟩
    rintro id hold _ hnew rfl
    rcases (hx.sound.settledIn_step a).2 id hnew with hw | ⟨hlt, -⟩
    · obtain ⟨q, hq, hid⟩ := hx.known id hold
      have hd := (hx.sound.mem_waiting_iff hq hid).mp hw
      rw [← hx.told q hq id hid, resultFor?_eq_none_iff] at hd
      exact hd hold
    · exact (resultFor?_eq_none_iff _ id).mp (hx.not_settled hlt) hold

theorem kept_ofConfig (c : Config) : (ofConfig c : Chronicle η).Kept where
  sound := Host.sound_ofConfig c
  first := by
    intro k q hq
    have hq' : ([] : List Asked)[k]? = some q := hq
    simp at hq'
  early := fun _ _ => rfl
  told := by
    intro q hq
    have hq' : q ∈ ([] : List Asked) := hq
    simp at hq'
  known := by
    intro id hid
    have hid' : id ∈ ([] : List RequestId) := hid
    simp at hid'
  once := List.nodup_nil

theorem kept (c : Config) (acts : List (Act η)) : ((ofConfig c).run acts).Kept :=
  run_induction (kept_ofConfig c) (fun _ a hx => hx.act a) acts

end Chronicle

/-! ## The theorem -/

namespace Chronicle

variable [Handler η]

/-- What becomes of calls and of their causes. -/
structure Settlement (x : Chronicle η) : Prop where
  /-- A call has the result of the first cause for it, and none before. -/
  first : ∀ k q, x.host.calls[k]? = some q →
    q.call.delivered = (x.past.findSome? (·.cause? k)).map (Cause.result q.proxy)
  /-- A call waits exactly as long as it has no result, and nothing else waits. -/
  waiting : ∀ id, id ∈ x.host.endpoint.waiting ↔
    ∃ q ∈ x.host.calls, q.call.id = some id ∧ q.call.delivered = none
  /-- No two calls share an id. -/
  apart : ∀ (k k' : Nat) (q q' : Asked) (id : RequestId), x.host.calls[k]? = some q → x.host.calls[k']? = some q' →
    q.call.id = some id → q'.call.id = some id → k = k'
  /-- No call is settled twice. -/
  once : (settledIn x.events).Nodup
  /-- A call has the result with which it was settled. -/
  told : ∀ q ∈ x.host.calls, ∀ id, q.call.id = some id →
    resultFor? x.events id = q.call.delivered
  /-- Whatever happens next gives a call a result, and takes its entry away, only if it is a cause
  for that very call; and it never changes a result. -/
  next : ∀ a k q, x.host.calls[k]? = some q → ∃ q', (x.act a).host.calls[k]? = some q' ∧
    q'.call.id = q.call.id ∧
    q'.call.delivered =
      q.call.delivered.or ((Moment.cause? ⟨x.host, a⟩ k).map (Cause.result q.proxy)) ∧
    ∀ id, q.call.id = some id →
      (x.act a).host.endpoint.pending.find? (fun p => p.1 = id) =
        if (Moment.cause? ⟨x.host, a⟩ k).isSome then none
        else x.host.endpoint.pending.find? (fun p => p.1 = id)
  /-- An act is a cause for one call only, unless it closes the endpoint. -/
  single : ∀ a k k' z z', Moment.cause? ⟨x.host, a⟩ k = some z →
    Moment.cause? ⟨x.host, a⟩ k' = some z' → k = k' ∨ z = .closed ∧ z' = .closed
  /-- A cause that comes too late leaves the whole of `pending` alone. -/
  late : ∀ a k q z, x.host.calls[k]? = some q → q.call.delivered ≠ none →
    Moment.cause? ⟨x.host, a⟩ k = some z → z ≠ .closed →
      (x.act a).host.endpoint.pending = x.host.endpoint.pending
  /-- A cancel says whether it is the first cause for its call. -/
  cancel : ∀ k q, x.host.calls[k]? = some q →
    ((q.call.cancel x.host.endpoint).1 = true ↔ x.past.findSome? (·.cause? k) = none)

end Chronicle

namespace Host

theorem Sound.find?_pending_eq {h : Host η} (hh : h.Sound) {q : Asked} (hq : q ∈ h.calls)
    {id : RequestId} (hid : q.call.id = some id) :
    h.endpoint.pending.find? (fun p => p.1 = id) =
      if q.call.delivered.isSome then none else some (id, q.proxy) := by
  cases hd : q.call.delivered with
  | none => exact hh.find?_pending hq hid hd
  | some r =>
      have hw : id ∉ h.endpoint.waiting := by
        rw [hh.mem_waiting_iff hq hid, hd]
        nofun
      rw [← Endpoint.find?_pending_isSome, Option.not_isSome_iff_eq_none] at hw
      exact hw

/-- An act is a cause for calls that were made before, or for the one that it makes. -/
theorem cause?_eq_some {h : Host η} {a : Act η} {k : Nat} {z : Cause}
    (hz : Moment.cause? ⟨h, a⟩ k = some z) :
    (a.asks = false ∧ ∃ q, h.calls[k]? = some q ∧ q.cause? h k a = some z) ∨
    a.asks = true ∧ k = h.calls.length := by
  unfold Moment.cause? at hz
  dsimp only at hz
  split at hz
  · next q hq =>
      refine Or.inl ⟨?_, q, hq, hz⟩
      cases Asked.endedBy hz <;> rfl
  · split at hz
    · next hk =>
        cases ha : a.asks with
        | true => exact Or.inr ⟨rfl, hk⟩
        | false =>
            rw [h.refused?_of_not_asks ha] at hz
            cases hz
    · cases hz

/-- An act is a cause for one call only, unless it closes the endpoint. -/
theorem Sound.cause?_single {h : Host η} (hh : h.Sound) {a : Act η} {k k' : Nat} {z z' : Cause}
    (hz : Moment.cause? ⟨h, a⟩ k = some z) (hz' : Moment.cause? ⟨h, a⟩ k' = some z') :
    k = k' ∨ z = .closed ∧ z' = .closed := by
  rcases cause?_eq_some hz with ⟨ha, q, hq, hz⟩ | ⟨ha, hk⟩
  · rcases cause?_eq_some hz' with ⟨-, q', hq', hz'⟩ | ⟨ha', -⟩
    · have hids : (∃ id, q.call.id = some id ∧ q'.call.id = some id) → k = k' := by
        rintro ⟨id, hid, hid'⟩
        exact hh.index_eq hq hq' hid hid'
      have hends' := Asked.endedBy hz'
      cases Asked.endedBy hz with
      | cancelled =>
          cases hends'
          exact Or.inl rfl
      | dropped held =>
          cases hends'
          exact Or.inl rfl
      | timedOut d limit late =>
          cases hends'
          exact Or.inl rfl
      | closed isOpen =>
          cases hends'
          exact Or.inr ⟨rfl, rfl⟩
      | answered frame m reply isOpen decodes answers =>
          cases hends' with
          | answered _ m' reply' _ decodes' answers' =>
              obtain rfl : m = m' := Except.ok.inj (decodes.symm.trans decodes')
              exact Or.inl (hids (Message.answers?_same answers answers'))
      | lost o err sending terminal isOpen =>
          cases hends' with
          | lost => exact Or.inr ⟨rfl, rfl⟩
          | undeliverable o' _ sending' goesOn request => exact absurd terminal goesOn
      | undeliverable o err sending goesOn request =>
          cases hends' with
          | lost o' _ sending' terminal => exact absurd terminal goesOn
          | undeliverable o' _ sending' _ request' =>
              obtain rfl : o = o' := Option.some.inj (sending.symm.trans sending')
              exact Or.inl (hids (Message.isRequest_same request request'))
    · rw [ha] at ha'
      cases ha'
  · rcases cause?_eq_some hz' with ⟨ha', -⟩ | ⟨-, hk'⟩
    · rw [ha] at ha'
      cases ha'
    · exact Or.inl (hk.trans hk'.symm)

variable [Handler η]

/-- An act takes away the entries of those calls for which it is a cause. -/
theorem Sound.find?_pending_step {h : Host η} (hh : h.Sound) {k : Nat} {q : Asked}
    (hq : h.calls[k]? = some q) {id : RequestId} (hid : q.call.id = some id) (a : Act η) :
    (h.step a).1.endpoint.pending.find? (fun p => p.1 = id) =
      if (Moment.cause? ⟨h, a⟩ k).isSome then none
      else h.endpoint.pending.find? (fun p => p.1 = id) := by
  obtain ⟨q', hq', hacc, hd⟩ := hh.call_step hq a
  have hid' : q'.call.id = some id := (congrArg Account.id hacc).trans hid
  have hproxy : q'.proxy = q.proxy := congrArg Account.proxy hacc
  have hcause : Moment.cause? ⟨h, a⟩ k = q.cause? h k a := by simp only [Moment.cause?, hq]
  rw [(hh.step a).find?_pending_eq (List.mem_of_getElem? hq') hid',
    hh.find?_pending_eq (List.mem_of_getElem? hq) hid, hd, hproxy, hcause]
  cases q.call.delivered <;> cases q.cause? h k a <;> rfl

/-- A cause for a call that has a result leaves all entries alone. -/
theorem Sound.pending_late {h : Host η} (hh : h.Sound) {a : Act η} {k : Nat} {q : Asked}
    {z : Cause} (hq : h.calls[k]? = some q) (hd : q.call.delivered ≠ none)
    (hz : Moment.cause? ⟨h, a⟩ k = some z) (hopen : z ≠ .closed) :
    (h.step a).1.endpoint.pending = h.endpoint.pending := by
  have ha : a.asks = false := by
    rcases cause?_eq_some hz with ⟨ha, -⟩ | ⟨-, rfl⟩
    · exact ha
    · rw [List.getElem?_eq_none (Nat.le_refl _)] at hq
      cases hq
  -- a call that waits would have a cause of its own
  refine (h.settles_step ha).balanced.pending.trans (List.filter_eq_self.mpr ?_)
  rintro ⟨id, proxy⟩ hp
  obtain ⟨q', hmem', hid', -, hd'⟩ := (hh.mem_pending id proxy).mp hp
  obtain ⟨k', hq'⟩ := List.mem_iff_getElem?.mp hmem'
  dsimp only
  rw [hh.resultFor?_step hq' hid' hd' a]
  cases hz' : q'.cause? h k' a with
  | none => rfl
  | some z' =>
      have hcause : Moment.cause? ⟨h, a⟩ k' = some z' := by
        simp only [Moment.cause?, hq']
        exact hz'
      rcases hh.cause?_single hz hcause with rfl | ⟨hclosed, -⟩
      · rw [hq] at hq'
        obtain rfl := Option.some.inj hq'
        exact absurd hd' hd
      · exact absurd hclosed hopen

end Host

namespace Chronicle

variable [Handler η]

/-- **Every call is settled exactly once, by the first cause for it.** -/
theorem settlement (c : Config) (acts : List (Act η)) :
    Settlement ((ofConfig c).run acts) := by
  have hx := kept c acts
  generalize (ofConfig c).run acts = x at hx
  refine ⟨hx.first, ?_, ?_, hx.once, hx.told, ?_, ?_, ?_, ?_⟩
  · intro id
    constructor
    · intro hw
      obtain ⟨⟨i, proxy⟩, hp, rfl⟩ := List.mem_map.mp hw
      obtain ⟨q, hq, hid, -, hd⟩ := (hx.sound.mem_pending i proxy).mp hp
      exact ⟨q, hq, hid, hd⟩
    · rintro ⟨q, hq, hid, hd⟩
      exact (hx.sound.mem_waiting_iff hq hid).mpr hd
  · intro k k' q q' id hq hq' hid hid'
    exact hx.sound.index_eq hq hq' hid hid'
  · intro a k q hq
    obtain ⟨q', hq', hacc, hd⟩ := hx.sound.call_step hq a
    have hcause : Moment.cause? ⟨x.host, a⟩ k = q.cause? x.host k a := by
      simp only [Moment.cause?, hq]
    exact ⟨q', hq', congrArg Account.id hacc, hcause ▸ hd, fun id hid =>
      hx.sound.find?_pending_step hq hid a⟩
  · intro a k k' z z' hz hz'
    exact hx.sound.cause?_single hz hz'
  · intro a k q z hq hd hz hopen
    exact hx.sound.pending_late hq hd hz hopen
  · intro k q hq
    have hfirst := hx.first k q hq
    have hmem := List.mem_of_getElem? hq
    have hd : x.past.findSome? (·.cause? k) = none ↔ q.call.delivered = none := by
      rw [hfirst, Option.map_eq_none_iff]
    rw [hd]
    cases hid : q.call.id with
    | none =>
        have := hx.sound.failed q.account (List.mem_map_of_mem hmem) hid
        simp only [Call.cancel, Call.cancelWith, hid]
        exact ⟨nofun, fun h => absurd h this⟩
    | some id =>
        simp only [Call.cancel, Call.cancelWith, hid]
        rw [Endpoint.cancelRequest_fst, decide_eq_true_eq]
        exact hx.sound.mem_waiting_iff hmem hid

/-- A call that an endpoint refuses is settled although nothing else has ended it. -/
theorem refused_at_once :
    let x := (ofConfig { side := .main, maxInFlight := 0 } : Chronicle Service).run
      [.op (.request ⟨7⟩ "echo" [])]
    x.host.calls.map (fun q => (q.call.id, q.call.delivered)) =
        [(some ⟨1⟩, some (.error (.tooManyInFlight 0 0)))] ∧
      x.past.map (·.cause? 0) = [some (.refused (.tooManyInFlight 0 0))] :=
  ⟨rfl, rfl⟩

end Chronicle

end PeerRpc
