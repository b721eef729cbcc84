import PeerRpc.Arguments
import PeerRpc.Proofs.Host.Discipline
import PeerRpc.Proofs.Host.Terms

/-!
# PeerRpc.Proofs.Host.Deadlines -- calls that find no answer in time

The deadline of a call counts from when the call was made, and nobody watches it but the caller: a
call whose time is over goes on until the caller looks for its result and finds none. The look takes
the entry of the call away, as an answer, a cancel and the end of the endpoint do, so whatever comes
first settles the call and everything else finds nothing.

`Host.Prompt` is the invariant behind this: a result that has been returned is there, and a timeout
is there only if the look that brought it about has returned it. So a look that returns a timeout is
always the one that ends the call. `deadlines` says what every look at every call comes to, at any
time and after any acts, and what happens to the call afterwards.
-/

namespace PeerRpc

variable {η : Type}

/-! ## Spans of time -/

/-- The call was made at least as long ago as its limit says. The clock counts milliseconds. -/
def Call.Overdue (c : Call) (d : Duration) (now : Nat) : Prop :=
  c.started * 1000000 + d.nanoseconds ≤ now * 1000000

theorem Call.overdue_iff {c : Call} {d : Duration} {now : Nat} :
    c.Overdue d now ↔ c.started + d.ticks ≤ now := by
  unfold Call.Overdue Duration.ticks
  omega

/-! ## Looks -/

namespace Call

variable {c : Call} {now : Nat} {e : Endpoint η} {d : Duration}

/-- A call whose time is not over stays as it is. -/
theorem poll_of_early (h : c.delivered = none)
    (hearly : ∀ d, c.limit = some d → ¬ c.Overdue d now) : c.poll now e = (none, c, (e, [])) :=
  poll_of_not_late h fun d hlimit hlate => hearly d hlimit (overdue_iff.mpr hlate)

/-- A call whose time is over is taken back with a timeout. -/
theorem poll_of_overdue (h : c.delivered = none) (hlimit : c.limit = some d)
    (hover : c.Overdue d now) :
    c.poll now e =
      (some (.error (.timeout d)), { c with settled := true },
        (c.cancelWith (.timeout d) e).2) :=
  poll_of_late h hlimit (overdue_iff.mp hover)

/-- A look that finds no result comes to something only when the time is over. -/
theorem overdue_of_poll (h : c.delivered = none) (hsome : (c.poll now e).1.isSome = true) :
    ∃ d, c.limit = some d ∧ c.Overdue d now := by
  cases c.polled now e with
  | delivered r hd poll =>
      rw [h] at hd
      cases hd
  | late d hn limit late poll => exact ⟨d, limit, overdue_iff.mpr late⟩
  | early hn poll =>
      rw [poll] at hsome
      cases hsome

/-- What a look at an overdue call does step by step. It has found no result; then others may use
the endpoint; then it takes the entry of the call, if there still is one, and looks again. -/
def expire (c : Call) (d : Duration) (others : Endpoint η → Endpoint.Step η) (e : Endpoint η) :
    CallResult × Endpoint.Step η :=
  let t := others e
  let u := (c.cancelWith (.timeout d) t.1).2
  (((t.2 ++ u.2).foldl hear c).delivered.getD (.error (.timeout d)), u.1, t.2 ++ u.2)

theorem cancelWith_of_id {id : RequestId} (h : c.id = some id) (reason : CallError) :
    c.cancelWith reason e = e.cancelRequest id reason := by
  rw [cancelWith, h]

end Call

namespace Endpoint

/-- Taking back a call that waits. -/
theorem cancelRequest_of_open {e : Endpoint η} {id : RequestId} (hw : id ∈ e.waiting)
    (hopen : e.isOpen = true) (reason : CallError) :
    (e.cancelRequest id reason).2 =
      ({ e with
          pending := e.pending.filter fun p => p.1 ≠ id,
          outbound := e.outbound ++ [{ message := .cancel id }] },
        [.settled id (.error reason), .queued { message := .cancel id }]) := by
  obtain ⟨p, hp⟩ := Option.isSome_iff_exists.mp ((find?_pending_isSome e id).mpr hw)
  rw [cancelRequest_of_waiting hw]
  refine Prod.ext ?_ ?_
  · show ((e.settle id _).1.enqueue _).1 = _
    rw [settle_fst, enqueue_fst, hopen]
    rfl
  · show (e.settle id _).2 ++ ((e.settle id _).1.enqueue _).2 = _
    rw [settle_fst, settle_snd, enqueue_snd, hopen, hp]
    rfl

end Endpoint

namespace Call

section

variable {c : Call} {e : Endpoint η} {id : RequestId} {others : Endpoint η → Endpoint.Step η}

/-- **Whoever takes the entry first settles the call.** If others do before the look takes it, the
look returns what they have brought, and takes nothing back. -/
theorem expire_of_settled (d : Duration) (hid : c.id = some id) (hd : c.delivered = none)
    (hothers : e.Balanced (others e)) {r : CallResult}
    (hr : resultFor? (others e).2 id = some r) : c.expire d others e = (r, others e) := by
  have hw : id ∉ (others e).1.waiting := by
    rw [hothers.mem_waiting, hr]
    exact fun h => nomatch h.2
  unfold expire
  dsimp only
  rw [cancelWith_of_id hid, Endpoint.cancelRequest_of_not_waiting hw, List.append_nil,
    delivered_hears, hd, hid, Option.none_or, Option.bind_some, hr]
  rfl

/-- A look that nobody forestalls takes the call back, and returns a timeout. -/
theorem expire_of_waiting (d : Duration) (hid : c.id = some id) (hd : c.delivered = none)
    (hw : id ∈ e.waiting) (hopen : e.isOpen = true) (hothers : e.Balanced (others e))
    (hr : resultFor? (others e).2 id = none) :
    c.expire d others e =
      (.error (.timeout d),
        { (others e).1 with
          pending := (others e).1.pending.filter fun p => p.1 ≠ id,
          outbound := (others e).1.outbound ++ [{ message := .cancel id }] },
        (others e).2 ++
          [.settled id (.error (.timeout d)), .queued { message := .cancel id }]) := by
  have hwait : id ∈ (others e).1.waiting := (hothers.mem_waiting id).mpr ⟨hw, hr⟩
  have hstill : (others e).1.isOpen = true := by
    cases hclosed : (others e).1.isOpen with
    | true => rfl
    | false =>
        -- a call does not wait at an endpoint that has just been closed
        unfold Endpoint.waiting at hwait
        rw [hothers.closed hclosed hopen] at hwait
        cases hwait
  unfold expire
  dsimp only
  rw [cancelWith_of_id hid, Endpoint.cancelRequest_of_open hwait hstill, delivered_hears, hd, hid,
    Option.none_or, Option.bind_some, resultFor?_append, hr, Option.none_or]
  simp [resultFor?, Event.settles?]

end

/-- A look without anybody else is what `poll` does. -/
theorem expire_alone {c : Call} {e : Endpoint η} {id : RequestId} {d : Duration} {now : Nat}
    (hid : c.id = some id) (hd : c.delivered = none) (hw : id ∈ e.waiting)
    (hopen : e.isOpen = true) (hlimit : c.limit = some d) (hover : c.Overdue d now) :
    c.poll now e =
      (some (c.expire d (fun e => (e, [])) e).1, { c with settled := true },
        (c.expire d (fun e => (e, [])) e).2) := by
  rw [poll_of_overdue hd hlimit hover, cancelWith_of_id hid,
    Endpoint.cancelRequest_of_open hw hopen,
    expire_of_waiting d hid hd hw hopen (Endpoint.Regular.refl e).toBalanced rfl]
  rfl

end Call

/-! ## Timeouts -/

/-- Nothing that is expected of a value makes a timeout of it. -/
theorem result_bind_eq_timeout (s : Shape) (r : CallResult) (d : Duration) :
    r.bind (result s) = .error (.timeout d) ↔ r = .error (.timeout d) := by
  cases r with
  | error err => exact ⟨fun h => by cases h; rfl, fun h => by cases h; rfl⟩
  | ok v =>
      refine ⟨fun h => ?_, nofun⟩
      have hresult : result s v = .error (.timeout d) := h
      unfold result at hresult
      split at hresult <;> cases hresult

/-- A call is not refused with a timeout. -/
theorem Host.refused?_ne_timeout (h : Host η) (a : Act η) (d : Duration) :
    h.refused? a ≠ some (.timeout d) := by
  intro he
  rcases refused?_eq_some he with ⟨i, hside⟩ | ⟨args, hrefuses⟩
  · cases hside
  · cases hrefuses

/-- What the other side says of a call is no timeout. -/
theorem CallError.ofRemote_ne_timeout (proxy : ProxyId) (err : RemoteError) (d : Duration) :
    ofRemote proxy err ≠ .timeout d := by
  unfold ofRemote
  split <;> nofun

/-- **Only a late look ends a call with a timeout.** -/
theorem Asked.late_of_timeout {h : Host η} {k : Nat} {q : Asked} {a : Act η} {z : Cause}
    {d : Duration} (hz : q.cause? h k a = some z)
    (hd : z.result q.proxy = .error (.timeout d)) :
    a = .op (.poll k) ∧ q.call.limit = some d ∧ q.call.Overdue d h.now := by
  cases Asked.endedBy hz with
  | timedOut d' limit late =>
      cases hd
      exact ⟨rfl, limit, Call.overdue_iff.mpr late⟩
  | answered frame m reply =>
      cases reply with
      | ok v => cases hd
      | error err => exact absurd (Except.error.inj hd) (CallError.ofRemote_ne_timeout _ _ _)
  | _ => cases hd

namespace Host

/-- Results are returned by the looks that find them, and a timeout by the look that brings it
about. -/
structure Prompt (h : Host η) : Prop where
  returned : ∀ q ∈ h.calls, q.call.settled = true → q.call.delivered ≠ none
  timeout : ∀ q ∈ h.calls, ∀ d, q.call.delivered = some (.error (.timeout d)) →
    q.call.settled = true

/-- A look that comes to something although there is no result is a late one. -/
theorem late_of_returns {h : Host η} {k : Nat} {q : Asked} {a : Act η}
    (hd : q.call.delivered = none) (hreturns : h.returns k q a = true) :
    ∃ d, q.cause? h k a = some (.timedOut d) := by
  unfold returns at hreturns
  split at hreturns
  · next k' =>
      rw [Bool.and_eq_true, decide_eq_true_eq] at hreturns
      obtain ⟨rfl, hsome⟩ := hreturns
      obtain ⟨d, hlimit, hover⟩ := Call.overdue_of_poll hd hsome
      refine ⟨d, ?_⟩
      simp only [Asked.cause?, hlimit, Call.overdue_iff.mp hover, decide_true, Bool.and_self,
        if_true]
  · cases hreturns

variable [Handler η]

/-- An answer to a call that does not wait changes nothing. -/
theorem receive_of_not_waiting {h : Host η} {id : RequestId} (hw : id ∉ h.endpoint.waiting)
    {frame : Bytes} {m : Message} (hm : Codec.decodeMessage frame = .ok m)
    (hanswers : (m.answers? (some id)).isSome = true) : h.step (.receive frame) = (h, []) := by
  have hsettle (r : ProxyId → CallResult) : h.endpoint.settle id r = (h.endpoint, []) := by
    rw [← Endpoint.find?_pending_isSome, Option.not_isSome_iff_eq_none] at hw
    unfold Endpoint.settle
    rw [hw]
  have hreceive : h.endpoint.receive frame = (h.endpoint, []) := by
    unfold Endpoint.receive
    rw [hm]
    split
    · cases m with
      | reply id' v =>
          obtain rfl : id = id' := by
            by_contra hne
            simp [Message.answers?, hne] at hanswers
          exact hsettle _
      | replyErr id' err =>
          obtain rfl : id = id' := by
            by_contra hne
            simp [Message.answers?, hne] at hanswers
          exact hsettle _
      | _ => cases hanswers
    · rfl
  show h.follow (h.endpoint.receive frame) = (h, [])
  rw [hreceive, follow]
  exact congrArg (fun calls => (({ h with calls := calls } : Host η), ([] : List (Event η))))
    (List.map_id h.calls)

/-- What an act makes of a call that was made before. -/
theorem Prompt.step_earlier {h : Host η} (hp : h.Prompt) (hh : h.Sound) {k : Nat} {q q' : Asked}
    (hq : h.calls[k]? = some q) (a : Act η) (hq' : (h.step a).1.calls[k]? = some q') :
    (q'.call.settled = true → q'.call.delivered ≠ none) ∧
      ∀ d, q'.call.delivered = some (.error (.timeout d)) → q'.call.settled = true := by
  obtain ⟨q₁, hq₁, hcarries⟩ := (h.continues_step a).earlier k q hq
  obtain rfl := Option.some.inj (hq'.symm.trans hq₁)
  obtain ⟨q₂, hq₂, -, hdelivered⟩ := hh.call_step hq a
  obtain rfl := Option.some.inj (hq'.symm.trans hq₂)
  have hmem := List.mem_of_getElem? hq
  rw [hcarries.settled, hdelivered]
  cases hd : q.call.delivered with
  | some r =>
      refine ⟨fun _ => nofun, fun d ht => ?_⟩
      rw [hp.timeout q hmem d (hd.trans ht), Bool.true_or]
  | none =>
      have hopen : q.call.settled = false := by
        cases hs : q.call.settled with
        | false => rfl
        | true => exact absurd hd (hp.returned q hmem hs)
      rw [hopen, Bool.false_or, Option.none_or]
      refine ⟨fun hreturns => ?_, fun d ht => ?_⟩
      · obtain ⟨d, hcause⟩ := late_of_returns hd hreturns
        rw [hcause]
        nofun
      · obtain ⟨z, hz, hresult⟩ := Option.map_eq_some_iff.mp ht
        obtain ⟨rfl, hlimit, hover⟩ := Asked.late_of_timeout hz hresult
        rw [returns_self, Call.poll_of_overdue hd hlimit hover]
        rfl

theorem Prompt.step {h : Host η} (hp : h.Prompt) (hh : h.Sound) (a : Act η) :
    (h.step a).1.Prompt := by
  have hall (q' : Asked) (hq' : q' ∈ (h.step a).1.calls) :
      (q'.call.settled = true → q'.call.delivered ≠ none) ∧
        ∀ d, q'.call.delivered = some (.error (.timeout d)) → q'.call.settled = true := by
    obtain ⟨k, hk⟩ := List.mem_iff_getElem?.mp hq'
    cases hq : h.calls[k]? with
    | some q => exact hp.step_earlier hh hq a hk
    | none =>
        -- a call that has just been made has not been looked at
        have hmakes := (h.continues_step a).new k q' hq hk
        refine ⟨fun hs => absurd (hmakes.settled.symm.trans hs) Bool.false_ne_true, fun d ht => ?_⟩
        rcases hh.call_new hq a with ⟨hnone, -⟩ | ⟨q₁, hq₁, -, hdelivered⟩
        · cases hk.symm.trans hnone
        · obtain rfl := Option.some.inj (hk.symm.trans hq₁)
          obtain ⟨z, hz, hresult⟩ := Option.map_eq_some_iff.mp (hdelivered.symm.trans ht)
          simp only [Moment.cause?, hq, Option.ite_none_right_eq_some] at hz
          obtain ⟨err, herr, rfl⟩ := Option.map_eq_some_iff.mp hz.2
          cases hresult
          exact absurd herr (h.refused?_ne_timeout a d)
  exact ⟨fun q hq => (hall q hq).1, fun q hq => (hall q hq).2⟩

end Host

namespace Chronicle

variable [Handler η]

theorem prompt_run (c : Config) (acts : List (Act η)) : ((ofConfig c).run acts).host.Prompt := by
  refine (run_induction (P := fun x => x.host.Sound ∧ x.host.Prompt)
    ⟨Host.sound_ofConfig c, fun _ hq => absurd hq List.not_mem_nil,
      fun _ hq => absurd hq List.not_mem_nil⟩ ?_ acts).2
  rintro x a ⟨hs, hp⟩
  exact ⟨hs.step a, hp.step hs a⟩

/-- What has happened has happened. -/
theorem events_run (x : Chronicle η) (acts : List (Act η)) : x.events <+: (x.run acts).events := by
  induction acts generalizing x with
  | nil => exact List.prefix_rfl
  | cons a acts ih =>
      refine List.IsPrefix.trans ?_ (ih (x.act a))
      rw [events_act]
      exact List.prefix_append _ _

/-! ## The end of an overdue call -/

/-- What a look does that ends the call `q`, whose id is `id`, with a timeout. -/
structure Expires (x : Chronicle η) (k : Nat) (q : Asked) (id : RequestId) (d : Duration) :
    Prop where
  isOpen : x.host.endpoint.isOpen = true
  waiting : (id, q.proxy) ∈ x.host.endpoint.pending
  /-- The entry of the call is taken away and its cancel is queued. -/
  endpoint : (x.act (.op (.poll k))).host.endpoint =
    { x.host.endpoint with
      pending := x.host.endpoint.pending.filter fun p => p.1 ≠ id,
      outbound := x.host.endpoint.outbound ++ [{ message := .cancel id }] }
  events : (x.host.step (.op (.poll k))).2 =
    [.settled id (.error (.timeout d)), .queued { message := .cancel id }]
  /-- The call has the result that the look returns. -/
  call : (x.act (.op (.poll k))).host.calls[k]? = some
    { q with call := { q.call with delivered := some (.error (.timeout d)), settled := true } }
  /-- Whatever follows, the call is cancelled once and for all, -/
  once : ∀ acts, (withdrawsIn (queuedIn ((x.act (.op (.poll k))).run acts).events)).count id = 1
  /-- its result stays, -/
  kept : ∀ acts, ∃ q', ((x.act (.op (.poll k))).run acts).host.calls[k]? = some q' ∧
    q'.call.delivered = some (.error (.timeout d))
  /-- and an answer to it that arrives later changes nothing at all. -/
  late : ∀ acts frame m, Codec.decodeMessage frame = .ok m → (m.answers? (some id)).isSome = true →
    ((x.act (.op (.poll k))).run acts).host.step (.receive frame) =
      (((x.act (.op (.poll k))).run acts).host, [])

/-- A result stays, whatever happens. -/
theorem delivered_run {x : Chronicle η} (hx : x.host.Sound) {k : Nat} {q : Asked} {r : CallResult}
    (hq : x.host.calls[k]? = some q) (hd : q.call.delivered = some r) (acts : List (Act η)) :
    ∃ q', (x.run acts).host.calls[k]? = some q' ∧ q'.call.delivered = some r := by
  refine (kept_acts (Q := fun h => h.Sound ∧ ∃ q', h.calls[k]? = some q' ∧
    q'.call.delivered = some r) ?_ acts ⟨hx, q, hq, hd⟩).2
  rintro h a ⟨hs, q, hq, hd⟩
  obtain ⟨q', hq', -, hd'⟩ := hs.call_step hq a
  rw [hd] at hd'
  exact ⟨hs.step a, q', hq', hd'⟩

/-- A look at an overdue call that has no result takes the call back. -/
theorem step_poll_of_overdue {x : Chronicle η} (hx : x.host.Sound) {k : Nat} {q : Asked}
    {id : RequestId} {d : Duration} (hq : x.host.calls[k]? = some q) (hid : q.call.id = some id)
    (hd : q.call.delivered = none) (hlimit : q.call.limit = some d)
    (hover : q.call.Overdue d x.host.now) :
    x.host.step (.op (.poll k)) =
      ({ x.host with
          calls := x.host.calls.set k { q with call := { q.call with settled := true } } } :
        Host η).follow
        ({ x.host.endpoint with
            pending := x.host.endpoint.pending.filter fun p => p.1 ≠ id,
            outbound := x.host.endpoint.outbound ++ [{ message := .cancel id }] },
          [.settled id (.error (.timeout d)), .queued { message := .cancel id }]) := by
  have hw := (hx.mem_waiting_iff (List.mem_of_getElem? hq) hid).mpr hd
  show x.host.onCall k (fun c => (c.poll x.host.now x.host.endpoint).2) = _
  unfold Host.onCall
  rw [hq]
  dsimp only
  rw [Call.poll_of_overdue hd hlimit hover, Call.cancelWith_of_id hid,
    Endpoint.cancelRequest_of_open hw (hx.isOpen_of_waiting hw)]

theorem expires (c : Config) (acts : List (Act η)) {k : Nat} {q : Asked} {id : RequestId}
    {d : Duration} (hq : ((ofConfig c).run acts).host.calls[k]? = some q)
    (hid : q.call.id = some id) (hd : q.call.delivered = none) (hlimit : q.call.limit = some d)
    (hover : q.call.Overdue d ((ofConfig c).run acts).host.now) :
    Expires ((ofConfig c).run acts) k q id d := by
  have hmem := List.mem_of_getElem? hq
  -- every later chronicle is that of some more acts
  have hlater (acts' : List (Act η)) :
      (((ofConfig c).run acts).act (.op (.poll k))).run acts' =
        (ofConfig c).run ((acts ++ [.op (.poll k)]) ++ acts') := by
    rw [run_append, run_concat]
  have hnumbered (acts' : List (Act η)) :
      ((((ofConfig c).run acts).act (.op (.poll k))).run acts').Numbered :=
    hlater acts' ▸ numbered c _
  have hsound : ((ofConfig c).run acts).host.Sound := (kept c acts).sound
  generalize (ofConfig c).run acts = x at *
  have hstep := step_poll_of_overdue hsound hq hid hd hlimit hover
  have hevents : (x.host.step (.op (.poll k))).2 =
      [.settled id (.error (.timeout d)), .queued { message := .cancel id }] := by
    rw [hstep]
    rfl
  have hcall : (x.act (.op (.poll k))).host.calls[k]? = some
      { q with call :=
          { q.call with delivered := some (.error (.timeout d)), settled := true } } := by
    rw [host_act, hstep]
    show ((x.host.calls.set k _).map (Asked.hear _))[k]? = _
    rw [List.getElem?_map, List.getElem?_set_self (List.getElem?_eq_some_iff.mp hq).1]
    simp [Asked.hear, Call.hear, Call.deliver, hid, hd]
  have hwithdrawn (acts' : List (Act η)) :
      id ∈ withdrawsIn (queuedIn ((x.act (.op (.poll k))).run acts').events) := by
    obtain ⟨more, hmore⟩ := (x.act (.op (.poll k))).events_run acts'
    rw [← hmore, events_act, hevents, queuedIn_append, queuedIn_append, withdrawsIn_append,
      withdrawsIn_append]
    exact List.mem_append_left _ (List.mem_append_right _ List.mem_cons_self)
  refine { isOpen := ?isOpen, waiting := ?waiting, endpoint := ?endpoint, events := hevents,
           call := hcall, once := ?once, kept := ?kept, late := ?late }
  case isOpen => exact hsound.isOpen_of_waiting ((hsound.mem_waiting_iff hmem hid).mpr hd)
  case waiting => exact (hsound.mem_pending id q.proxy).mpr ⟨q, hmem, hid, rfl, hd⟩
  case endpoint =>
    rw [host_act, hstep]
    rfl
  case once =>
    intro acts'
    exact List.count_eq_one_of_mem (hnumbered acts').once (hwithdrawn acts')
  case kept => exact delivered_run (hsound.step _) hcall rfl
  case late =>
    intro acts' frame m hm hanswers
    exact Host.receive_of_not_waiting ((hnumbered acts').gone id (hwithdrawn acts')) hm hanswers

/-! ## The theorem -/

/-- What a look at the call `k` comes to. -/
structure OnTime (c : Config) (x : Chronicle η) (k : Nat) (q : Asked) : Prop where
  /-- The deadline counts from when the call was made. -/
  made : ∃ m, Made c x k q m
  /-- The call has the result of the first thing that has settled it, if any has. -/
  first : q.call.delivered = (x.past.findSome? (·.cause? k)).map (Cause.result q.proxy)
  /-- A result that is there is returned as it is, at any time, and nothing else happens. -/
  returned : ∀ r, q.call.delivered = some r →
    q.call.poll x.host.now x.host.endpoint =
      (some r, { q.call with settled := true }, (x.host.endpoint, []))
  /-- A call that has nothing to return goes on until its time is over. -/
  early : x.past.findSome? (·.cause? k) = none →
    (∀ d, c.requestTimeout = some d → ¬ q.call.Overdue d x.host.now) →
      q.call.poll x.host.now x.host.endpoint = (none, q.call, (x.host.endpoint, []))
  /-- A look returns a timeout exactly if the time is over and nothing has settled the call. -/
  timeout : q.call.settled = false → ∀ d,
    ((q.call.poll x.host.now x.host.endpoint).1 = some (.error (.timeout d)) ↔
      c.requestTimeout = some d ∧ q.call.Overdue d x.host.now ∧
        x.past.findSome? (·.cause? k) = none)
  /-- A result of a certain type that is expected is a timeout exactly if the plain one is. -/
  typed : ∀ (s : Shape) d,
    ((q.call.poll x.host.now x.host.endpoint).1.map fun r => r.bind (result s)) =
        some (.error (.timeout d)) ↔
      (q.call.poll x.host.now x.host.endpoint).1 = some (.error (.timeout d))
  /-- Such a look ends the call. -/
  expires : ∀ d, c.requestTimeout = some d → q.call.Overdue d x.host.now →
    x.past.findSome? (·.cause? k) = none → ∃ id, q.call.id = some id ∧ x.Expires k q id d
  /-- It looks twice, and takes the entry of the call in between. -/
  twice : ∀ d, c.requestTimeout = some d → q.call.Overdue d x.host.now →
    x.past.findSome? (·.cause? k) = none →
      q.call.poll x.host.now x.host.endpoint =
        (some (q.call.expire d (fun e => (e, [])) x.host.endpoint).1,
          { q.call with settled := true },
          (q.call.expire d (fun e => (e, [])) x.host.endpoint).2)
  /-- If others use the endpoint after the first look, whoever takes the entry first settles the
  call, and it is cancelled only if the look does. -/
  forestalled : ∀ d id, q.call.id = some id → x.past.findSome? (·.cause? k) = none →
    ∀ others : Endpoint η → Endpoint.Step η,
      x.host.endpoint.Balanced (others x.host.endpoint) →
      match resultFor? (others x.host.endpoint).2 id with
      | some r => q.call.expire d others x.host.endpoint = (r, others x.host.endpoint)
      | none =>
        (q.call.expire d others x.host.endpoint).1 = .error (.timeout d) ∧
          (q.call.expire d others x.host.endpoint).2.2 =
            (others x.host.endpoint).2 ++
              [.settled id (.error (.timeout d)), .queued { message := .cancel id }]

/-- **Deadlines are kept.** Whatever has happened at an endpoint, a look at a call that has not
returned yet returns a timeout exactly if the limit is over, counted from when the call was made,
and nothing has settled the call before. -/
theorem deadlines (c : Config) (acts : List (Act η)) (k : Nat) (q : Asked)
    (hq : ((ofConfig c).run acts).host.calls[k]? = some q) :
    OnTime c ((ofConfig c).run acts) k q := by
  have hx := kept c acts
  have hprompt := prompt_run c acts
  have hexpires (id : RequestId) (d : Duration) := @expires η _ c acts k q id d hq
  obtain ⟨m, hmade⟩ := made_run c acts hq
  generalize (ofConfig c).run acts = x at *
  have hmem := List.mem_of_getElem? hq
  have hnone : x.past.findSome? (·.cause? k) = none ↔ q.call.delivered = none := by
    rw [hx.first k q hq, Option.map_eq_none_iff]
  -- a call that has no result has an id, and the limit of the settings
  have hterms (hd : q.call.delivered = none) :
      ∃ id, q.call.id = some id ∧ q.call.limit = c.requestTimeout := by
    cases hid : q.call.id with
    | none => exact absurd hd (hx.sound.failed q.account (List.mem_map_of_mem hmem) hid)
    | some id => exact ⟨id, rfl, hmade.limit id hid⟩
  have hwaits {id : RequestId} (hid : q.call.id = some id) (hd : q.call.delivered = none) :
      id ∈ x.host.endpoint.waiting := (hx.sound.mem_waiting_iff hmem hid).mpr hd
  refine { made := ⟨m, hmade⟩, first := hx.first k q hq,
           returned := fun r hr => Call.poll_of_delivered hr, early := ?early,
           timeout := ?timeout, typed := ?typed, expires := ?expires, twice := ?twice,
           forestalled := ?forestalled }
  case early =>
    intro hcause hearly
    have hd := hnone.mp hcause
    obtain ⟨id, -, hlimit⟩ := hterms hd
    exact Call.poll_of_early hd fun d hd' => hearly d (hlimit.symm.trans hd')
  case timeout =>
    intro hopen d
    constructor
    · intro hlook
      cases hd : q.call.delivered with
      | some r =>
          -- a timeout that is there has been returned
          rw [Call.poll_of_delivered hd] at hlook
          obtain rfl := Option.some.inj hlook
          have hreturned := hprompt.timeout q hmem d hd
          rw [hopen] at hreturned
          cases hreturned
      | none =>
          obtain ⟨id, -, hlimit⟩ := hterms hd
          obtain ⟨d', hd', hover⟩ := Call.overdue_of_poll hd (Option.isSome_of_mem hlook)
          rw [Call.poll_of_overdue hd hd' hover] at hlook
          cases hlook
          exact ⟨hlimit.symm.trans hd', hover, hnone.mpr hd⟩
    · rintro ⟨hconfig, hover, hcause⟩
      have hd := hnone.mp hcause
      obtain ⟨id, -, hlimit⟩ := hterms hd
      rw [Call.poll_of_overdue hd (hlimit.trans hconfig) hover]
  case typed =>
    intro s d
    cases (q.call.poll x.host.now x.host.endpoint).1 with
    | none => exact ⟨nofun, nofun⟩
    | some r =>
        rw [Option.map_some, Option.some.injEq, Option.some.injEq]
        exact result_bind_eq_timeout s r d
  case expires =>
    intro d hconfig hover hcause
    have hd := hnone.mp hcause
    obtain ⟨id, hid, hlimit⟩ := hterms hd
    exact ⟨id, hid, hexpires id d hid hd (hlimit.trans hconfig) hover⟩
  case twice =>
    intro d hconfig hover hcause
    have hd := hnone.mp hcause
    obtain ⟨id, hid, hlimit⟩ := hterms hd
    have hw := hwaits hid hd
    exact Call.expire_alone hid hd hw (hx.sound.isOpen_of_waiting hw) (hlimit.trans hconfig) hover
  case forestalled =>
    intro d id hid hcause others hothers
    have hd := hnone.mp hcause
    have hw := hwaits hid hd
    split
    · next r hr => exact Call.expire_of_settled d hid hd hothers hr
    · next hr =>
        rw [Call.expire_of_waiting d hid hd hw (hx.sound.isOpen_of_waiting hw) hothers hr]
        exact ⟨rfl, rfl⟩

/-- A call that may wait fifty milliseconds, and is looked at for the first time after sixty. -/
theorem deadlines_late :
    let c : Config := { side := .main, requestTimeout := some (.ofMilliseconds 50) }
    let x := (ofConfig c : Chronicle Service).run [.op (.request ⟨7⟩ "slow" []), .op (.wait 60)]
    ∃ q, x.host.calls[0]? = some q ∧ q.call.settled = false ∧
      (q.call.poll x.host.now x.host.endpoint).1 = some (.error (.timeout (.ofMilliseconds 50))) ∧
      OnTime c x 0 q := by
  intro c x
  have hq : x.host.calls[0]? = some ⟨⟨7⟩, "slow", [],
      { id := some ⟨1⟩, limit := some (.ofMilliseconds 50), started := 0 }⟩ := rfl
  have hover : Call.Overdue
      { id := some ⟨1⟩, limit := some (.ofMilliseconds 50), started := 0 }
      (.ofMilliseconds 50) x.host.now := by
    show 0 * 1000000 + 50 * 1000000 ≤ 60 * 1000000
    decide
  refine ⟨_, hq, rfl, ?_, deadlines c _ 0 _ hq⟩
  rw [Call.poll_of_overdue rfl rfl hover]

end Chronicle

end PeerRpc
