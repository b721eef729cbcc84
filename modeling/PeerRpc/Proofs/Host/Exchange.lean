import PeerRpc.Proofs.Host.Replies

/-!
# PeerRpc.Proofs.Host.Exchange -- what each act does to calls and messages that wait

Three questions about a single act that a second endpoint depends on: which act queues a message of
a certain kind (`Host.Posting` read backwards), which calls begin or cease to wait with it
(`Host.Sound.leaves`, `Host.joins`), and what it leaves alone (`Host.Posts`).
-/

namespace PeerRpc

variable {η : Type}

/-- What was asked with a call, and the id of the call. -/
def Asked.wish (q : Asked) : Option RequestId × ProxyId × String × List Value :=
  (q.call.id, q.proxy, q.method, q.args)

@[simp] theorem Asked.wish_hear (events : List (Event η)) (q : Asked) :
    (q.hear events).wish = q.wish := by
  have hid := congrArg Account.id (q.account_hear events)
  unfold wish
  rw [show (q.hear events).call.id = q.call.id from hid]
  rfl

namespace Host

/-! ## What stays -/

/-- A step whose events account for the messages that wait, and that forgets no call. -/
structure Posts (h : Host η) (x : Host η × List (Event η)) : Prop where
  outbound : x.1.endpoint.outbound = h.endpoint.outbound ++ queuedIn x.2
  sending : x.1.sending = h.sending
  wishes : h.calls.map Asked.wish <+: x.1.calls.map Asked.wish

/-- A step that has nothing to do with messages. -/
theorem Posts.of_silent {h h' : Host η} (ho : h'.endpoint.outbound = h.endpoint.outbound)
    (hs : h'.sending = h.sending) (hc : h'.calls = h.calls) : h.Posts (h', []) where
  outbound := ho.trans (List.append_nil _).symm
  sending := hs
  wishes := hc ▸ List.prefix_rfl

theorem map_wish_hear (calls : List Asked) (events : List (Event η)) :
    (calls.map (Asked.hear events)).map Asked.wish = calls.map Asked.wish := by
  rw [List.map_map]
  exact List.map_congr_left fun q _ => q.wish_hear events

theorem Posts.follow {h : Host η} {s : Endpoint.Step η} (hs : h.endpoint.Regular s) :
    h.Posts (h.follow s) where
  outbound := hs.outbound
  sending := rfl
  wishes := by
    show _ <+: (h.calls.map (Asked.hear s.2)).map Asked.wish
    exact (map_wish_hear h.calls s.2).symm ▸ List.prefix_rfl

theorem Posts.attempt {h : Host η} {r : Except CallError (Endpoint.Step η)}
    (hr : ∀ s, r = .ok s → h.endpoint.Regular s) : h.Posts (h.attempt r) := by
  cases r with
  | error err => exact .of_silent rfl rfl rfl
  | ok s => exact .follow (hr s rfl)

/-- A step of the endpoint and of one of its calls. -/
theorem Posts.onCall {h : Host η} {k : Nat} {f : Call → Call × Endpoint.Step η}
    (hid : ∀ c, (f c).1.id = c.id) (hf : ∀ c, h.endpoint.Regular (f c).2) :
    h.Posts (h.onCall k f) := by
  unfold Host.onCall
  split
  · exact .of_silent rfl rfl rfl
  · next q hq =>
      refine ⟨(hf q.call).outbound, rfl, ?_⟩
      have hset : (h.calls.set k { q with call := (f q.call).1 }).map Asked.wish =
          h.calls.map Asked.wish := by
        refine List.ext_getElem? fun i => ?_
        rw [List.map_set, List.getElem?_set]
        split
        · next hik =>
            subst hik
            have hw : Asked.wish { q with call := (f q.call).1 } = q.wish := by
              unfold Asked.wish
              rw [hid q.call]
            rw [hw, List.getElem?_map, hq]
            split
            · rfl
            · next hlen =>
                rw [List.length_map] at hlen
                exact absurd (List.getElem?_eq_some_iff.mp hq).1 hlen
        · rfl
      show _ <+: ((h.calls.set k _).map (Asked.hear _)).map Asked.wish
      exact ((map_wish_hear _ _).trans hset).symm ▸ List.prefix_rfl

theorem outbound_request (e : Endpoint η) (proxy : ProxyId) (method : String)
    (args : List Value) :
    (e.request proxy method args).2.1.outbound =
      e.outbound ++ queuedIn (e.request proxy method args).2.2 := by
  cases hr : e.refusal? proxy method args with
  | some err =>
      rw [Endpoint.request_of_refusal hr]
      exact (List.append_nil _).symm
  | none =>
      rw [Endpoint.request_of_none hr]
      rfl

/-- A call that is made is remembered behind the others. -/
theorem wishes_begin (h : Host η) (proxy : ProxyId) (method : String) (args : List Value) :
    (h.begin proxy method args (h.endpoint.request proxy method args)).1.calls.map Asked.wish =
      h.calls.map Asked.wish ++ [(some ⟨h.endpoint.nextId⟩, proxy, method, args)] := by
  unfold begin
  show (List.map (Asked.hear _) _).map Asked.wish = _
  rw [map_wish_hear]
  simp [Asked.wish]

theorem Posts.begin (h : Host η) (proxy : ProxyId) (method : String) (args : List Value) :
    h.Posts (h.begin proxy method args (h.endpoint.request proxy method args)) where
  outbound := outbound_request h.endpoint proxy method args
  sending := rfl
  wishes := by
    rw [wishes_begin]
    exact List.prefix_append _ _

/-- What is done without the channel adds to the messages that wait and takes none away. -/
theorem posts_operate (h : Host η) (o : Op η) : h.Posts (h.operate o) := by
  cases o with
  | invoke i method args =>
      rw [operate_invoke]
      split
      · exact .of_silent rfl rfl rfl
      · split
        · refine ⟨(List.append_nil _).symm, rfl, ?_⟩
          show _ <+: (h.calls ++ _).map Asked.wish
          rw [List.map_append]
          exact List.prefix_append _ _
        · exact .begin h i.id method args
  | request proxy method args =>
      simp only [operate]
      split
      · exact .of_silent rfl rfl rfl
      · exact .begin h proxy method args
  | notify i method args => exact .attempt fun s hs => Endpoint.regular_notify hs
  | notifyProxy proxy method args => exact .attempt fun s hs => Endpoint.regular_notifyProxy hs
  | cancel k =>
      show h.Posts (h.onCall k fun c => (c, (c.cancel h.endpoint).2))
      exact .onCall (fun _ => rfl) fun c => c.regular_cancel .cancelled h.endpoint
  | drop k =>
      show h.Posts (h.onCall k fun c => (c, c.drop h.endpoint))
      exact .onCall (fun _ => rfl) fun c => c.regular_drop h.endpoint
  | poll k =>
      exact .onCall (fun c => c.id_poll h.now h.endpoint) fun c => c.regular_poll h.now h.endpoint
  | wait ms => exact .of_silent rfl rfl rfl
  | set i handler =>
      rw [operate_set]
      split <;> exact .of_silent rfl rfl rfl
  | unset i => exact .of_silent rfl rfl rfl
  | register proxy handler => exact .of_silent rfl rfl rfl
  | unregister proxy => exact .of_silent rfl rfl rfl
  | conclude serial o =>
      simp only [operate]
      split
      · exact .of_silent rfl rfl rfl
      · exact .of_silent rfl rfl rfl
  | stop serial => exact .follow (h.endpoint.regular_fire serial)
  | reap serial =>
      simp only [operate]
      split
      · exact .of_silent rfl rfl rfl
      · exact .follow (h.endpoint.regular_finish serial _)
  | close => exact .follow h.endpoint.regular_close

variable [Handler η]

theorem posts_receive (h : Host η) (frame : Bytes) : h.Posts (h.step (.receive frame)) :=
  .follow (h.endpoint.regular_receive frame)

/-- An open endpoint hands its first message to the channel. -/
theorem step_take {h : Host η} {o : Outbound} {rest : List Outbound} (hs : h.sending = none)
    (hopen : h.endpoint.isOpen = true) (ho : h.endpoint.outbound = o :: rest) :
    h.step .take =
      ({ h with endpoint := { h.endpoint with outbound := rest }, sending := some o }, []) := by
  have hd : h.endpoint.dequeue = some (o, { h.endpoint with outbound := rest }) :=
    Endpoint.dequeue_eq_some.mpr ⟨hopen, rest, ho, rfl⟩
  simp only [step, hs, hd]

theorem step_sent_ok (h : Host η) : h.step (.sent (.ok ())) = ({ h with sending := none }, []) := by
  simp only [step]
  cases hs : h.sending with
  | none =>
      obtain ⟨endpoint, calls, now, sending, concluded⟩ := h
      obtain rfl : sending = none := hs
      rfl
  | some o => rfl

theorem posts_sent_error (h : Host η) (err : TransportError) :
    ({ h with sending := none } : Host η).Posts (h.step (.sent (.error err))) := by
  simp only [step]
  cases hs : h.sending with
  | none =>
      refine .of_silent rfl ?_ rfl
      exact hs
  | some o =>
      have hr : ({ h with sending := none } : Host η).endpoint.Regular
          (if err.isTerminal then h.endpoint.close else h.endpoint.undeliverable o err) := by
        split
        · exact h.endpoint.regular_close
        · exact h.endpoint.regular_undeliverable o err
      exact .follow hr

/-- No act forgets a call. -/
theorem wishes_step (h : Host η) (a : Act η) :
    h.calls.map Asked.wish <+: (h.step a).1.calls.map Asked.wish := by
  cases a with
  | op o => exact (h.posts_operate o).wishes
  | receive frame => exact (h.posts_receive frame).wishes
  | take =>
      simp only [step]
      split <;> exact List.prefix_rfl
  | sent r =>
      cases r with
      | ok u => exact (h.step_sent_ok).symm ▸ List.prefix_rfl
      | error err => exact (h.posts_sent_error err).wishes

/-! ## What is queued -/

/-- The answer to a request is no last resort. -/
theorem lastResort_of_answers {o : Outbound} {id : RequestId} (h : o.answers? = some id) :
    o.lastResort = false := by
  unfold Outbound.answers? at h
  split at h
  · cases h
  · next hno => simpa using hno

/-- A request is queued by the act that makes its call. -/
theorem posting_request {h : Host η} {a : Act η} {id : RequestId} {proxy : ProxyId}
    {method : String} {args : List Value}
    (hq : h.queues? a = some { message := .request id proxy method args }) :
    id = ⟨h.endpoint.nextId⟩ ∧ h.endpoint.nextId ≠ 0 ∧
      h.endpoint.refusal? proxy method args = none ∧
      h.step a = h.begin proxy method args (h.endpoint.request proxy method args) ∧
      (a = .op (.request proxy method args) ∨
        ∃ i : Identifier, i.id = proxy ∧ a = .op (.invoke i method args)) := by
  cases posting hq with
  | request proxy' method' args' message next granted step op =>
      obtain ⟨rfl, rfl, rfl, rfl⟩ := by simpa using message
      exact ⟨rfl, next, granted, step, op⟩
  | notification proxy' method' args' message => simp at message
  | cancel k q id' message => simp at message
  | outcome id' r out message =>
      rcases out.message_cases id' with ⟨v, h⟩ | ⟨err, h⟩ <;> simp [h] at message
  | miss id' proxy' message => simp at message
  | replacement o' err id' bounced answers message => simp at message

/-- A cancel is queued by an act that ends a call that waits. -/
theorem posting_cancel {h : Host η} {a : Act η} {id : RequestId}
    (hq : h.queues? a = some { message := .cancel id }) :
    id ∈ h.endpoint.waiting ∧ ∃ (k : Nat) (q : Asked), h.calls[k]? = some q ∧
      q.call.id = some id ∧ (q.cause? h k a).isSome = true := by
  cases posting hq with
  | cancel k q id' message call named waits cause op =>
      obtain rfl : id = id' := by simpa using message
      exact ⟨waits, k, q, call, named, cause⟩
  | request proxy method args message => simp at message
  | notification proxy method args message => simp at message
  | outcome id' r out message =>
      rcases out.message_cases id' with ⟨v, h⟩ | ⟨err, h⟩ <;> simp [h] at message
  | miss id' proxy message => simp at message
  | replacement o' err id' bounced answers message => simp at message

/-! ## Which calls wait -/

/-- How a call ceases to wait with an act. -/
inductive Leaving (h : Host η) (a : Act η) (id : RequestId) : Prop
  | answered (m : Message) (reply : Except RemoteError Value) (receives : h.receives? a = some m)
      (answers : m.answers? (some id) = some reply)
  | cancelled (queues : h.queues? a = some { message := .cancel id })
  | refused (o : Outbound) (err : TransportError) (bounced : h.bounced? a = some (o, err))
      (request : o.message.isRequest (some id) = true)
  | closed (closes : h.closes a = true)

omit [Handler η] in
theorem takesBack?_eq_some {h : Host η} {k : Nat} {a : Act η} {q : Asked} {id : RequestId}
    (hh : h.Sound) (hq : h.calls[k]? = some q) (hid : q.call.id = some id)
    (hw : id ∈ h.endpoint.waiting) (hcause : (q.cause? h k a).isSome = true) :
    queues?.takesBack? h k a = some { message := .cancel id } := by
  unfold queues?.takesBack?
  rw [hq, Option.bind_some, if_pos hcause, hid, Option.bind_some, Endpoint.cancels?,
    if_pos ⟨hw, hh.isOpen_of_waiting hw⟩]

omit [Handler η] in
/-- The call that waits under an id. -/
theorem Agrees.exists_of_waiting {h : Host η} (hh : h.Agrees) {id : RequestId}
    (hw : id ∈ h.endpoint.waiting) :
    ∃ (k : Nat) (q : Asked), h.calls[k]? = some q ∧ q.call.id = some id ∧
      q.call.delivered = none := by
  obtain ⟨⟨id', proxy⟩, hp, rfl⟩ := List.mem_map.mp hw
  obtain ⟨q, hq, hid, -, hd⟩ := (hh.mem_pending id' proxy).mp hp
  obtain ⟨k, hk⟩ := List.mem_iff_getElem?.mp hq
  exact ⟨k, q, hk, hid, hd⟩

omit [Handler η] in
/-- Every cause for a call that waits makes it cease to wait in one of the four ways. -/
theorem Sound.leaving_of_cause {h : Host η} (hh : h.Sound) {k : Nat} {q : Asked} {id : RequestId}
    (hq : h.calls[k]? = some q) (hid : q.call.id = some id) (hw : id ∈ h.endpoint.waiting)
    {a : Act η} {z : Cause} (hcause : q.cause? h k a = some z) : h.Leaving a id := by
  have hback := takesBack?_eq_some hh hq hid hw (Option.isSome_of_mem hcause)
  cases Asked.endedBy hcause with
  | cancelled => exact .cancelled hback
  | dropped => exact .cancelled hback
  | timedOut => exact .cancelled hback
  | closed isOpen => exact .closed isOpen
  | answered frame m reply isOpen decodes answers =>
      refine .answered m reply ?_ (hid ▸ answers)
      simp only [receives?, isOpen, if_true, decodes]
      rfl
  | lost o err sending terminal isOpen =>
      exact .closed (by simp [closes, isOpen, terminal, sending])
  | undeliverable o err sending goesOn request =>
      refine .refused o err ?_ (hid ▸ request)
      simp only [bounced?, sending, if_neg goesOn, Option.map_some]

/-- A call ceases to wait for one of four reasons. -/
theorem Sound.leaves {h : Host η} (hh : h.Sound) {a : Act η} {id : RequestId}
    (hw : id ∈ h.endpoint.waiting) (hw' : id ∉ (h.step a).1.endpoint.waiting) : h.Leaving a id := by
  obtain ⟨k, q, hq, hid, hd⟩ := hh.exists_of_waiting hw
  cases ha : a.asks with
  | true =>
      rcases h.step_asks ha with ⟨hs, -⟩ | ⟨_, _, _, _, hs, -⟩ | ⟨-, proxy, method, args, hs, -⟩
      · rw [hs] at hw'
        exact absurd hw hw'
      · rw [hs] at hw'
        exact absurd hw hw'
      · refine absurd ?_ hw'
        rw [hs]
        show id ∈ ((h.endpoint.request proxy method args).2.1.pending.map Prod.fst)
        rw [Endpoint.pending_request, List.map_append]
        exact List.mem_append_left _ hw
  | false =>
      have hb := (h.settles_step ha).balanced
      have hsome : resultFor? (h.step a).2 id ≠ none := fun hnone =>
        hw' ((hb.mem_waiting id).mpr ⟨hw, hnone⟩)
      rw [hh.resultFor?_step hq hid hd a] at hsome
      cases hcause : q.cause? h k a with
      | none =>
          rw [hcause] at hsome
          exact absurd rfl hsome
      | some z => exact hh.leaving_of_cause hq hid hw hcause

/-- A call begins to wait when its request is queued. -/
theorem joins {h : Host η} {a : Act η} {id : RequestId}
    (hw : id ∉ h.endpoint.waiting) (hw' : id ∈ (h.step a).1.endpoint.waiting) :
    ∃ proxy method args, h.queues? a = some { message := .request id proxy method args } := by
  cases ha : a.asks with
  | false => exact absurd (((h.settles_step ha).balanced.mem_waiting id).mp hw').1 hw
  | true =>
      -- of the calls that wait after a request only its own is new
      have hnew {proxy : ProxyId} {method : String} {args : List Value}
          (hid : id ∈ (h.endpoint.request proxy method args).2.1.waiting) :
          h.endpoint.requests? proxy method args =
            some { message := .request id proxy method args } := by
        unfold Endpoint.waiting at hid
        rw [Endpoint.pending_request, List.map_append] at hid
        rcases List.mem_append.mp hid with hold | hnew
        · exact absurd hold hw
        · unfold Endpoint.requests?
          split at hnew
          · next hnone =>
              rw [if_pos hnone, List.mem_singleton.mp hnew]
          · cases hnew
      cases a with
      | op o =>
          cases o with
          | invoke i method args =>
              rw [Host.step, operate_invoke] at hw'
              simp only [queues?]
              by_cases hn : h.endpoint.nextId = 0
              · rw [if_pos hn] at hw'
                exact absurd hw' hw
              · rw [if_neg hn] at hw'
                by_cases hside : i.side = h.endpoint.side
                · rw [if_pos hside] at hw'
                  exact absurd hw' hw
                · rw [if_neg hside] at hw'
                  rw [if_neg (not_or.mpr ⟨hn, hside⟩)]
                  exact ⟨_, _, _, hnew hw'⟩
          | request proxy method args =>
              simp only [Host.step, Host.operate] at hw'
              simp only [queues?]
              by_cases hn : h.endpoint.nextId = 0
              · rw [if_pos hn] at hw'
                exact absurd hw' hw
              · rw [if_neg hn] at hw' ⊢
                exact ⟨_, _, _, hnew hw'⟩
          | _ => cases ha
      | _ => cases ha

omit [Handler η] in
theorem receives?_eq_some {h : Host η} {a : Act η} {m : Message} (hm : h.receives? a = some m) :
    h.endpoint.isOpen = true ∧
      ∃ frame, a = .receive frame ∧ Codec.decodeMessage frame = .ok m := by
  unfold receives? at hm
  split at hm
  · next frame =>
      split at hm
      · next hopen =>
          refine ⟨hopen, frame, rfl, ?_⟩
          cases hd : Codec.decodeMessage frame with
          | ok m' =>
              rw [hd] at hm
              exact congrArg Except.ok (Option.some.inj hm)
          | error err =>
              rw [hd] at hm
              cases hm
      · cases hm
  · cases hm

omit [Handler η] in
theorem bounced?_eq_some {h : Host η} {a : Act η} {o : Outbound} {err : TransportError}
    (hb : h.bounced? a = some (o, err)) :
    a = .sent (.error err) ∧ h.sending = some o ∧ err.isTerminal = false := by
  unfold bounced? at hb
  split at hb
  · next err' =>
      split at hb
      · cases hb
      · next hterm =>
          obtain ⟨o', hsend, heq⟩ := Option.map_eq_some_iff.mp hb
          obtain ⟨rfl, rfl⟩ := Prod.mk.inj heq
          exact ⟨rfl, hsend, by simpa using hterm⟩
  · cases hb

/-- What ends the call of an id is a cause for the call. -/
theorem Agrees.cause?_of_leaving {h : Host η} (hh : h.Agrees) {a : Act η} {k : Nat} {q : Asked}
    {id : RequestId} (hq : h.calls[k]? = some q) (hid : q.call.id = some id)
    (hl : h.Leaving a id) : (q.cause? h k a).isSome = true := by
  cases hl with
  | answered m reply receives answers =>
      obtain ⟨hopen, frame, rfl, hd⟩ := receives?_eq_some receives
      simp only [Asked.cause?, hopen, hd, hid, answers]
      rfl
  | cancelled queues =>
      obtain ⟨-, k', q', hq', hid', hcause⟩ := posting_cancel queues
      obtain rfl := hh.index_eq hq' hq hid' hid
      rw [hq'] at hq
      obtain rfl := Option.some.inj hq
      exact hcause
  | refused o err bounced request =>
      obtain ⟨rfl, hsend, hterm⟩ := bounced?_eq_some bounced
      simp only [Asked.cause?, hsend, hterm, hid, request]
      rfl
  | closed closes =>
      unfold Host.closes at closes
      split at closes
      · simp only [Asked.cause?, closes]
        rfl
      · next err =>
          simp only [Bool.and_eq_true, Option.isSome_iff_exists] at closes
          obtain ⟨⟨hopen, hterm⟩, o, hsend⟩ := closes
          simp only [Asked.cause?, hsend, hterm, hopen]
          rfl
      · cases closes

/-- A call that is ended does not wait any more. -/
theorem Agrees.left {h : Host η} (hh : h.Agrees) {a : Act η} {id : RequestId}
    (hl : h.Leaving a id) : id ∉ (h.step a).1.endpoint.waiting := by
  intro hw'
  by_cases hw : id ∈ h.endpoint.waiting
  · obtain ⟨k, q, hq, hid, hd⟩ := hh.exists_of_waiting hw
    have hcause := hh.cause?_of_leaving hq hid hl
    have hasks : a.asks = false := by
      cases ha : a.asks with
      | false => rfl
      | true =>
          cases a with
          | op o =>
              cases o with
              | invoke i method args => cases hcause
              | request proxy method args => cases hcause
              | _ => cases ha
          | _ => cases ha
    have hnone := (((h.settles_step hasks).balanced.mem_waiting id).mp hw').2
    have hsome : (resultFor? (h.step a).2 id).isSome = true := by
      rw [hh.resultFor?_step hq hid hd a, Option.isSome_map]
      exact hcause
    rw [hnone] at hsome
    cases hsome
  · -- a call that begins to wait is ended by nothing
    obtain ⟨proxy, method, args, hq⟩ := joins hw hw'
    obtain ⟨-, -, -, -, hop⟩ := posting_request hq
    cases hl with
    | answered m reply receives answers =>
        obtain ⟨-, frame, rfl, -⟩ := receives?_eq_some receives
        rcases hop with hop | ⟨_, -, hop⟩ <;> cases hop
    | cancelled queues =>
        rw [hq] at queues
        simp at queues
    | refused o err bounced request =>
        obtain ⟨rfl, -⟩ := bounced?_eq_some bounced
        rcases hop with hop | ⟨_, -, hop⟩ <;> cases hop
    | closed closes =>
        rcases hop with rfl | ⟨_, -, rfl⟩ <;> cases closes

end Host

end PeerRpc
