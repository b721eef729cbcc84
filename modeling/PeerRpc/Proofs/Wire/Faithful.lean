import PeerRpc.Proofs.Wire.Traced

/-!
# PeerRpc.Proofs.Wire.Faithful -- a call gets what its own run came to

`Outcome.image` is what a caller makes of an outcome, on a line with a limit. In every run of two
endpoints in which no handler fires the signal of its own call, a request is dispatched once at most,
as it was made, and a call that is settled by an answer has the image of the outcome of the one run
for it; it learns that there is no service exactly if there was none when its request came
(`Wire.Faithful`).
-/

namespace PeerRpc

variable {η : Type}

/-- What a caller makes of an outcome, if its answer travels over a line with this limit. -/
def Outcome.image (limit : Nat) (id : RequestId) (out : Outcome) : CallResult :=
  let size := (Cbor.encodeMessage (out.message id)).length
  if limit < size then .error (.remote (Endpoint.undelivered (.frameTooLarge size limit)))
  else
    match out with
    | .value v =>
      if v.depth ≤ Codec.maxDepth then .ok v.sorted else .error (.remote Endpoint.tooDeep)
    | .failed e =>
      if ∀ v ∈ e.toRemote.details, v.depth ≤ Codec.maxDepth then .error (.remote e.toRemote.received)
      else .error (.remote Endpoint.tooDeep)
    | .panicked message => .error (.remote (.panicked message))
    | .aborted => .error (.remote .requestCancelled)

/-- No outcome looks like a service that is not there. -/
theorem Outcome.image_ne (limit : Nat) (id : RequestId) (out : Outcome) (proxy : ProxyId) :
    out.image limit id ≠ .error (.noSuchProxy proxy) := by
  unfold image
  dsimp only
  split
  · nofun
  · cases out with
    | value v =>
        dsimp only
        split <;> nofun
    | failed e =>
        dsimp only
        split <;> nofun
    | panicked message => nofun
    | aborted => nofun

/-- An answer that arrives is read as the image of its outcome. -/
theorem Outcome.result_of_answers {limit : Nat} {id : RequestId} {out : Outcome}
    {reply : Except RemoteError Value} (proxy : ProxyId)
    (h : (out.message id).received.answers? (some id) = some reply)
    (hsize : (Cbor.encodeMessage (out.message id)).length ≤ limit) :
    (Cause.answered reply).result proxy = out.image limit id := by
  unfold image
  dsimp only
  rw [if_neg (Nat.not_lt.mpr hsize)]
  have hdeep : ∀ {reply : Except RemoteError Value},
      (Message.replyErr id Endpoint.tooDeep).received.answers? (some id) = some reply →
        (Cause.answered reply).result proxy = .error (.remote Endpoint.tooDeep) := by
    intro reply h
    obtain rfl := Option.some.inj ((if_pos rfl).symm.trans h)
    rfl
  cases out with
  | value v =>
      dsimp only
      rw [message] at h
      split at h
      · next hd =>
          rw [if_pos hd]
          obtain rfl := Option.some.inj ((if_pos rfl).symm.trans h)
          rfl
      · next hd =>
          rw [if_neg hd]
          exact hdeep h
  | failed e =>
      dsimp only
      rw [message] at h
      split at h
      · next hd =>
          rw [if_pos hd]
          obtain rfl := Option.some.inj ((if_pos rfl).symm.trans h)
          cases e <;> rfl
      · next hd =>
          rw [if_neg hd]
          exact hdeep h
  | panicked message =>
      obtain rfl := Option.some.inj ((if_pos rfl).symm.trans h)
      rfl
  | aborted =>
      obtain rfl := Option.some.inj ((if_pos rfl).symm.trans h)
      rfl

namespace Wire

variable [Handler η]

/-- What becomes of the call `q` with this id, whose request arrives at the moment `m` of the other
side's past `x`. -/
structure Fulfilled (limit : Nat) (x : Chronicle η) (id : RequestId) (q : Asked) (m : Moment η) :
    Prop where
  past : m ∈ x.past
  receives : m.host.receives? m.act =
    some (.request id q.proxy q.method (q.args.map Value.sorted))
  /-- The request does not arrive a second time. -/
  only : ∀ m' ∈ x.past, (m'.host.receives? m'.act).bind Message.asks? = some id → m' = m
  /-- The caller learns that there is no service exactly if there is none when the request comes. -/
  missing : q.call.delivered = some (.error (.noSuchProxy q.proxy)) ↔
    m.host.endpoint.registry.get? q.proxy = none
  /-- If there is one, its run is the one that the caller learns of. -/
  outcome : ∀ g, m.host.endpoint.registry.get? q.proxy = some g →
    ∃ r out, m.host.starts? m.act = some r ∧ r.handler = g ∧
      (∃ m' ∈ x.past, m'.act = .op (.reap r.serial) ∧ m'.host.outcome? r.serial = some out) ∧
      q.call.delivered = some (out.image limit id)

/-- What the caller with the past `x` can rely on if the other side has the past `y`. -/
structure Faithful (limit : Nat) (x y : Chronicle η) : Prop where
  /-- At most one run begins for a call. -/
  once : ∀ id, (startedIn y.events).countP (fun r => r.request = some id) ≤ 1
  /-- A run begins for a call with what the caller passed. -/
  passed : ∀ r ∈ startedIn y.events, ∀ id, r.request = some id →
    ∃ q ∈ x.host.calls, q.call.id = some id ∧ r.proxy = q.proxy ∧ r.method = q.method ∧
      r.args = q.args.map Value.sorted ∧ ((∀ v ∈ q.args, v.Ordered) → r.args = q.args)
  /-- A call that an answer settles is told what became of it. -/
  answered : ∀ k q reply, x.host.calls[k]? = some q →
    x.past.findSome? (·.cause? k) = some (.answered reply) →
      ∃ id m, q.call.id = some id ∧ Fulfilled limit y id q m

variable {limit : Nat} {w : Wire η} {s : Side}

theorem mem_startedIn {x : Chronicle η} {r : Run η} :
    r ∈ startedIn x.events ↔ ∃ m ∈ x.past, m.host.starts? m.act = some r := by
  rw [x.startedIn_events, List.mem_filterMap]

/-- As many runs begin for a request as it arrives, at most. -/
theorem started_le_arrivals (x : Chronicle η) (id : RequestId) :
    (startedIn x.events).countP (fun r => r.request = some id) ≤ arrivals x id := by
  rw [x.startedIn_events, List.countP_filterMap]
  refine List.countP_mono_left fun m _ hm => ?_
  cases hr : m.host.starts? m.act with
  | none => simp [hr] at hm
  | some r =>
      rw [hr] at hm
      have hm' := (Host.starts?_eq_some hr).receives _ (by simpa using hm)
      simp [hm', Message.asks?]

omit [Handler η] in
theorem eq_of_countP_le_one {α : Type} {p : α → Bool} {xs : List α} (h : xs.countP p ≤ 1)
    {x y : α} (hx : x ∈ xs) (hy : y ∈ xs) (hpx : p x = true) (hpy : p y = true) : y = x := by
  obtain ⟨ys, zs, rfl⟩ := List.append_of_mem hx
  have hzero : ys.countP p = 0 ∧ zs.countP p = 0 := by
    rw [List.countP_append, List.countP_cons, if_pos hpx] at h
    omega
  rcases List.mem_append.mp hy with hy | hy
  · exact absurd hpy (List.countP_eq_zero.mp hzero.1 y hy)
  · rcases List.mem_cons.mp hy with hy | hy
    · exact hy
    · exact absurd hpy (List.countP_eq_zero.mp hzero.2 y hy)

omit [Handler η] in
/-- A request that arrives belongs to the call with its id. -/
theorem Traced.call (ht : Traced limit w s) {m : Moment η}
    (hm : m ∈ (w.chronicle s.opposite).past) {id : RequestId} {proxy : ProxyId} {method : String}
    {args : List Value} (hmessage : m.host.receives? m.act = some (.request id proxy method args)) :
    ∃ (k : Nat) (q : Asked), (w.host s).calls[k]? = some q ∧ q.call.id = some id ∧
      proxy = q.proxy ∧ method = q.method ∧ args = q.args.map Value.sorted := by
  obtain ⟨args₀, hwish, rfl⟩ := ht.arrived m hm id proxy method args hmessage
  obtain ⟨q, hq, hw⟩ := List.mem_map.mp hwish
  obtain ⟨k, hk⟩ := List.mem_iff_getElem?.mp hq
  simp only [Asked.wish, Prod.mk.injEq] at hw
  obtain ⟨hid, rfl, rfl, rfl⟩ := hw
  exact ⟨k, q, hk, hid, rfl, rfl, rfl⟩

omit [Handler η] in
/-- The arrival of the request of a call, which is the only one. -/
theorem Traced.arrival (ht : Traced limit w s) (hs : (w.host s).Sound) {m : Moment η}
    (hm : m ∈ (w.chronicle s.opposite).past) {id : RequestId} {proxy : ProxyId} {method : String}
    {args : List Value} (hmessage : m.host.receives? m.act = some (.request id proxy method args))
    {k : Nat} {q : Asked} (hq : (w.host s).calls[k]? = some q) (hid : q.call.id = some id) :
    proxy = q.proxy ∧
      m.host.receives? m.act = some (.request id q.proxy q.method (q.args.map Value.sorted)) ∧
      ∀ m' ∈ (w.chronicle s.opposite).past,
        (m'.host.receives? m'.act).bind Message.asks? = some id → m' = m := by
  obtain ⟨k', q', hq', hid', rfl, rfl, rfl⟩ := ht.call hm hmessage
  obtain rfl := hs.index_eq hq hq' hid hid'
  obtain rfl := Option.some.inj (hq.symm.trans hq')
  refine ⟨rfl, hmessage, fun m' hm' hasks => ?_⟩
  have hone := ht.single id
  have harrive : arrivals (w.chronicle s.opposite) id ≤ 1 := by omega
  refine eq_of_countP_le_one harrive hm hm' (decide_eq_true ?_) (decide_eq_true hasks)
  rw [hmessage]
  rfl

/-- What a call is told when the run for it has ended. -/
theorem Traced.fulfilled_of_ends (ht : Traced limit w s) (hs : (w.host s).Sound)
    (hbegun : ∀ m ∈ (w.chronicle s.opposite).past, ∀ r ∈ m.host.endpoint.runs,
      (w.chronicle s.opposite).Begun r)
    {k : Nat} {q : Asked} {id : RequestId} (hq : (w.host s).calls[k]? = some q)
    (hid : q.call.id = some id) {m : Moment η} (hm : m ∈ (w.chronicle s.opposite).past)
    {r : Run η} {out : Outcome} {o : Outbound} (he : m.host.Ends m.act id o r out)
    (hown : out.isOwn = true) (hd : q.call.delivered = some (out.image limit id)) :
    ∃ m, Fulfilled limit (w.chronicle s.opposite) id q m := by
  obtain ⟨m₀, hm₀, r₀, b, hstart, rfl⟩ := hbegun m hm r (List.mem_of_find?_eq_some he.run)
  have hrequest : r₀.request = some id := he.request
  obtain ⟨hproxy, hreceives, honly⟩ :=
    ht.arrival hs hm₀ ((Host.starts?_eq_some hstart).receives _ hrequest) hq hid
  have hhosted := (Host.starts?_eq_some hstart).hosted
  rw [hproxy] at hhosted
  refine ⟨m₀, hm₀, hreceives, honly, ?_, fun g hg => ?_⟩
  · rw [hd, hhosted]
    exact ⟨fun h => absurd (Option.some.inj h) (out.image_ne limit id q.proxy), nofun⟩
  · refine ⟨r₀, out, hstart, Option.some.inj (hhosted.symm.trans hg), ⟨m, hm, he.act, ?_⟩, hd⟩
    have hout := Host.outcome?_of_own he.ending hown
    exact hout

/-- What a call is told that an answer with a source settles. -/
theorem Traced.fulfilled (ht : Traced limit w s) (hs : (w.host s).Sound)
    (hbegun : ∀ m ∈ (w.chronicle s.opposite).past, ∀ r ∈ m.host.endpoint.runs,
      (w.chronicle s.opposite).Begun r)
    {k : Nat} {q : Asked} {id : RequestId} (hq : (w.host s).calls[k]? = some q)
    (hid : q.call.id = some id) {o : Outbound} (hsource : Source limit (w.chronicle s.opposite) id o)
    (hsize : o.bytes.length ≤ limit) {reply : Except RemoteError Value}
    (hanswer : o.message.received.answers? (some id) = some reply)
    (hd : q.call.delivered = some ((Cause.answered reply).result q.proxy)) :
    ∃ m, Fulfilled limit (w.chronicle s.opposite) id q m := by
  cases hsource with
  | outcome m past r out ends own =>
      refine ht.fulfilled_of_ends hs hbegun hq hid past ends own ?_
      rw [ends.message] at hanswer
      rw [Outbound.bytes, ends.message] at hsize
      rw [hd, Outcome.result_of_answers q.proxy hanswer hsize]
  | substitute m past r out o' ends own size last message =>
      refine ht.fulfilled_of_ends hs hbegun hq hid past ends own ?_
      rw [message] at hanswer
      obtain rfl := Option.some.inj ((if_pos rfl).symm.trans hanswer)
      rw [Outbound.bytes, ends.message] at size
      rw [hd, Outbound.bytes, ends.message]
      unfold Outcome.image
      dsimp only
      rw [if_pos size]
      rfl
  | miss m past proxy misses =>
      obtain ⟨method, args, hm⟩ := misses.receives
      obtain ⟨hproxy, hreceives, honly⟩ := ht.arrival hs past hm hq hid
      have hmissing := misses.missing
      rw [hproxy] at hmissing
      rw [misses.message] at hanswer
      obtain rfl := Option.some.inj ((if_pos rfl).symm.trans hanswer)
      refine ⟨m, past, hreceives, honly, ⟨fun _ => hmissing, fun _ => hd⟩, fun g hg => ?_⟩
      rw [hmissing] at hg
      cases hg

/-- **A call gets what its own run came to.** -/
theorem Reached.faithful {ok : Op η → Prop} {c : Side → Config} (h : Reached limit ok c w)
    (hok : ∀ o, ok o → ∀ serial, o ≠ .stop serial) (hmin : Codec.narrowest ≤ limit)
    (hlimit : limit < 2 ^ 64) (s : Side) :
    Faithful limit (w.chronicle s) (w.chronicle s.opposite) := by
  have ht := h.traced hok hmin hlimit s
  have hs := (h.kept s).1
  obtain ⟨acts, hacts⟩ := h.exists_run s
  obtain ⟨acts', hacts'⟩ := h.exists_run s.opposite
  refine ⟨fun id => ?_, fun r hr id hid => ?_, fun k q reply hq hfirst => ?_⟩
  · have hone := ht.single id
    have := started_le_arrivals (w.chronicle s.opposite) id
    omega
  · obtain ⟨m, hm, hstart⟩ := mem_startedIn.mp hr
    obtain ⟨k, q, hq, hid', hproxy, hmethod, hargs⟩ :=
      ht.call hm ((Host.starts?_eq_some hstart).receives _ hid)
    refine ⟨q, List.mem_of_getElem? hq, hid', hproxy, hmethod, hargs, fun hordered => ?_⟩
    rw [hargs]
    exact List.map_congr_left (fun v hv => v.sorted_eq_self (hordered v hv)) |>.trans
      (List.map_id' _)
  · have hsettled := (Chronicle.settlement (c s) acts).first k q
    rw [← hacts] at hsettled
    have hd := hsettled hq
    rw [hfirst] at hd
    -- the moment at which the answer arrived, and the host as it was then
    obtain ⟨before, m, after, hpast, hcause, hnone⟩ := List.findSome?_eq_some_iff.mp hfirst
    rw [hacts] at hpast
    obtain ⟨acts₀, hacts₀⟩ := Chronicle.exists_run_of_past hpast
    have hm : m ∈ ((Chronicle.ofConfig (c s)).run acts).past := by
      rw [hpast]
      exact List.mem_append_right _ List.mem_cons_self
    obtain ⟨q₀, hq₀, hz⟩ := Host.calls_of_answered hcause
    obtain ⟨msg, id, hmsg, hid₀, hanswer⟩ := Host.receives?_of_answered hz
    have hkept := Chronicle.kept (c s) acts₀
    rw [hacts₀] at hkept
    -- the call waited until then
    have hwait : id ∈ m.host.endpoint.waiting := by
      have hd₀ := hkept.first k q₀ hq₀
      rw [List.findSome?_eq_none_iff.mpr hnone] at hd₀
      exact (hkept.sound.mem_waiting_iff (List.mem_of_getElem? hq₀) hid₀).mpr hd₀
    -- and is the call that it is now
    have hid : q.call.id = some id := by
      have hq' : ((Chronicle.ofConfig (c s)).run acts).host.calls[k]? = some q := by
        rw [← hacts]
        exact hq
      have hwish := Chronicle.wish_eq_of_past hm hq₀ hq'
      exact (congrArg Prod.fst hwish).trans hid₀
    obtain ⟨o, hsource, rfl, hsize⟩ := ht.heard m (hacts ▸ hm) msg id hmsg
      (Message.replies?_eq_some.mpr ⟨reply, hanswer⟩) hwait
    have hbegun := (Chronicle.begun_run (c s.opposite) acts').2
    rw [← hacts'] at hbegun
    obtain ⟨m', hm'⟩ := ht.fulfilled hs hbegun hq hid hsource hsize hanswer hd
    exact ⟨id, m', hid, hm'⟩

end Wire

end PeerRpc
