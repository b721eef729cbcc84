import PeerRpc.Proofs.Endpoint.Openings
import PeerRpc.Proofs.Host.Discipline
import PeerRpc.Proofs.Host.Terms

/-!
# PeerRpc.Proofs.Host.Identities -- which calls have an id

A call has no id if it fails before there is anything to make a request of: its service is one of
this side, or an argument has no plain form. Any other call draws the next id first, and only then
the endpoint may refuse it (`Endpoint.Refuses`) or others may stop it. Such a call is
`Opening.Held`: it keeps its id, although nothing has been queued under it. For all calls but these
the id tells whether a request has been queued (`Opening.Identified.tells`).

A call keeps its id for the whole run, and its request is queued by the act that makes it or never,
since later requests have higher ids (`Chronicle.Reports`). `identities` puts this together;
`named_unsent` is a call that is held.
-/

namespace PeerRpc

variable {η : Type}

/-! ## The next id -/

namespace Host

/-- No call has the id that comes after all others. -/
def Positive (h : Host η) : Prop := ∀ q ∈ h.calls, ∀ id, q.call.id = some id → id.val ≠ 0

variable [Handler η]

theorem Positive.step {h : Host η} (hp : h.Positive) (hh : h.Sound) (a : Act η) :
    (h.step a).1.Positive := by
  intro q' hq' id hid
  obtain ⟨k, hk⟩ := List.mem_iff_getElem?.mp hq'
  cases hq : h.calls[k]? with
  | some q =>
      obtain ⟨q₁, hq₁, hcarries⟩ := (h.continues_step a).earlier k q hq
      obtain rfl := Option.some.inj (hk.symm.trans hq₁)
      exact hp q (List.mem_of_getElem? hq) id (hcarries.alike.id.symm.trans hid)
  | none =>
      rcases hh.call_new hq a with ⟨hnone, -⟩ | ⟨q₁, hq₁, hnew, -⟩
      · cases hk.symm.trans hnone
      · obtain rfl := Option.some.inj (hk.symm.trans hq₁)
        have hlt := hnew.fresh id hid
        intro hzero
        rw [hzero] at hlt
        exact absurd hlt (Nat.not_lt_zero _)

omit [Handler η] in
/-- The next id is nobody's, even when all have been handed out. -/
theorem Sound.next_fresh {h : Host η} (hh : h.Sound) (hp : h.Positive) :
    ∀ q ∈ h.calls, q.call.id ≠ some ⟨h.endpoint.nextId⟩ := by
  intro q hq hid
  by_cases hn : h.endpoint.nextId = 0
  · exact hp q hq _ hid hn
  · exact hh.fresh hn (List.mem_filterMap.mpr ⟨q.account, List.mem_map_of_mem hq, hid⟩)

omit [Handler η] in
theorem Sound.next_not_waiting {h : Host η} (hh : h.Sound) (hp : h.Positive) :
    (⟨h.endpoint.nextId⟩ : RequestId) ∉ h.endpoint.waiting := by
  intro hwaiting
  obtain ⟨⟨id, proxy⟩, hmem, hid⟩ := List.mem_map.mp hwaiting
  obtain ⟨q, hq, hqid, -⟩ := (hh.mem_pending id proxy).mp hmem
  exact hh.next_fresh hp q hq (hid ▸ hqid)

/-- What the ids of calls at a host rest on. -/
structure Ready (h : Host η) : Prop where
  sound : h.Sound
  positive : h.Positive

theorem Ready.step {h : Host η} (hr : h.Ready) (a : Act η) : (h.step a).1.Ready where
  sound := hr.sound.step a
  positive := hr.positive.step hr.sound a

omit [Handler η] in
theorem ready_ofConfig (c : Config) : (Host.ofConfig c : Host η).Ready where
  sound := sound_ofConfig c
  positive := fun _ hq => absurd hq List.not_mem_nil

end Host

namespace Opening

/-! ## Calls that are held -/

/-- Why nothing is queued for a call that has an id. -/
inductive Held (e : Endpoint η) (w : Meanwhile) (o : Opening) : CallError → Prop
  /-- The endpoint refuses the call. -/
  | refused {x : ProxyId × List Value} {err : CallError} (target : o.target e = .ok x)
      (refuses : e.Refuses x.2 err) : Held e w o err
  /-- Others stop the call when the endpoint has granted it. -/
  | stopped {x : ProxyId × List Value} (target : o.target e = .ok x)
      (granted : ¬∃ err, e.Refuses x.2 err) (stops : o.stops w = true) :
      Held e w o .disconnected

variable {now : Nat} {e : Endpoint η} {w : Meanwhile} {o : Opening} {x : ProxyId × List Value}
variable {err : CallError}

theorem fails_of_held (now : Nat) (hfresh : (⟨e.nextId⟩ : RequestId) ∉ e.waiting)
    (hcall : o.isCall = true) (h : o.Held e w err) :
    ∃ b, Fails err b (o.placeApart now e w) := by
  cases h with
  | refused htarget hrefuses =>
      exact ⟨e, fails_of_error ((message_eq_error_iff hcall htarget).mpr hrefuses)⟩
  | stopped htarget hgranted hstops =>
      exact ⟨_, fails_of_stops (message_of_granted hcall htarget hgranted) hfresh hstops⟩

theorem starts_of_not_held (now : Nat) (hcall : o.isCall = true) (htarget : o.target e = .ok x)
    (h : ¬∃ err, o.Held e w err) :
    o.Starts e (e.closeIf w.closes).1 (.request ⟨e.nextId⟩ x.1 o.method x.2)
      (o.placeApart now e w) := by
  have hgranted : ¬∃ err, e.Refuses x.2 err := fun ⟨err, hr⟩ => h ⟨err, .refused htarget hr⟩
  refine starts_of_runs (message_of_granted hcall htarget hgranted) ?_
  cases hstops : o.stops w with
  | false => rfl
  | true => exact absurd ⟨_, .stopped htarget hgranted hstops⟩ h

/-- A call without a service or without arguments leaves the endpoint alone. -/
theorem placeApart_of_unmeant (hcall : o.isCall = true) (htarget : o.target e = .error err) :
    o.placeApart now e w = ((e, []), .call (.failed err)) := by
  simp only [placeApart, htarget, hcall, if_true]

/-- Any other call has the next id. -/
theorem exists_call (now : Nat) (w : Meanwhile) (hcall : o.isCall = true)
    (htarget : o.target e = .ok x) :
    ∃ c, (o.placeApart now e w).2 = .call c ∧ c.id = some ⟨e.nextId⟩ := by
  have hid := Endpoint.requestApart_id e w x.1 o.method x.2
  rw [placeApart, htarget]
  dsimp only
  rw [if_pos hcall]
  generalize e.requestApart w x.1 o.method x.2 = r at hid
  refine ⟨_, rfl, ?_⟩
  rw [Call.id_hears]
  exact congrArg some hid

/-- What the id of the call `c` tells that has just been made. `queued` are the messages that have
joined the queue meanwhile. -/
structure Identified (e : Endpoint η) (w : Meanwhile) (o : Opening) (c : Call)
    (queued : List Outbound) : Prop where
  /-- A call has no id exactly if its service is one of this side or an argument has no plain
  form, -/
  without : c.id = none ↔ ∃ err, o.target e = .error err
  /-- and then nothing is queued. -/
  silent : c.id = none → queued = []
  /-- Any other call has the next id, -/
  named : ∀ id, c.id = some id → id = ⟨e.nextId⟩
  /-- under which its request is queued, -/
  sent : ∀ id, c.id = some id → (¬∃ err, o.Held e w err) →
    ∃ proxy args, o.target e = .ok (proxy, args) ∧
      queued = [{ message := .request id proxy o.method args }]
  /-- unless the call is held. -/
  held : ∀ err, o.Held e w err → c.id ≠ none ∧ queued = []
  /-- A call that has no id or is held has failed at once, and no other has. -/
  failed : ∀ err, c.delivered = some (.error err) ↔
    o.target e = .error err ∨ o.Held e w err
  /-- So the calls whose ids tell whether anything has been queued are those that are not held. -/
  tells : (c.id = none ↔ queued = []) ↔ ¬∃ err, o.Held e w err

theorem identified_of_unmeant (htarget : o.target e = .error err) :
    Identified e w o (.failed err) [] := by
  have hheld (err' : CallError) : ¬o.Held e w err' := by
    intro h
    cases h with
    | refused htarget' _ => cases htarget.symm.trans htarget'
    | stopped htarget' _ _ => cases htarget.symm.trans htarget'
  constructor
  case without => exact iff_of_true rfl ⟨err, htarget⟩
  case silent => exact fun _ => rfl
  case named => exact fun id hid => absurd hid.symm (Option.some_ne_none id)
  case sent => exact fun id hid => absurd hid.symm (Option.some_ne_none id)
  case held => exact fun err' h => absurd h (hheld err')
  case tells => exact iff_of_true (iff_of_true rfl rfl) fun ⟨err', h⟩ => hheld err' h
  case failed =>
    intro err'
    rw [htarget, or_iff_left (hheld err')]
    constructor
    · intro h
      cases h
      rfl
    · intro h
      cases h
      rfl

/-- A call with an id has failed at once exactly if it is held. -/
theorem delivered_iff_held (hfresh : (⟨e.nextId⟩ : RequestId) ∉ e.waiting)
    (hcall : o.isCall = true) (htarget : o.target e = .ok x) {c : Call}
    (hc : (o.placeApart now e w).2 = .call c) (err : CallError) :
    c.delivered = some (.error err) ↔ o.Held e w err := by
  have htold {err : CallError} (h : o.Held e w err) : c.delivered = some (.error err) := by
    obtain ⟨b, hfails⟩ := fails_of_held now hfresh hcall h
    exact error?_call.mp (hc ▸ hfails.told)
  refine ⟨fun hd => ?_, htold⟩
  by_cases hheld : ∃ err, o.Held e w err
  · obtain ⟨err', h⟩ := hheld
    obtain rfl : err' = err := by simpa using (htold h).symm.trans hd
    exact h
  · have hnone := (starts_of_not_held now hcall htarget hheld).told
    rw [hc, error?_call.mpr hd] at hnone
    cases hnone

/-- What the id tells of a call that has one. -/
theorem identified_of_named (htarget : o.target e = .ok x) {c : Call} {queued : List Outbound}
    (hid : c.id = some ⟨e.nextId⟩)
    (hsent : (¬∃ err, o.Held e w err) →
      queued = [{ message := .request ⟨e.nextId⟩ x.1 o.method x.2 }])
    (hheld : ∀ err, o.Held e w err → queued = [])
    (hfailed : ∀ err, c.delivered = some (.error err) ↔ o.Held e w err) :
    Identified e w o c queued := by
  have htarget' (err : CallError) : o.target e ≠ .error err := by
    rw [htarget]
    nofun
  have hnamed : c.id ≠ none := by
    rw [hid]
    nofun
  constructor
  case without => exact iff_of_false hnamed fun ⟨err, h⟩ => htarget' err h
  case silent => exact fun h => absurd h hnamed
  case named => exact fun id h => Option.some.inj (h.symm.trans hid)
  case held => exact fun err h => ⟨hnamed, hheld err h⟩
  case failed => exact fun err => (hfailed err).trans (or_iff_right (htarget' err)).symm
  case sent =>
    intro id h hno
    obtain rfl := Option.some.inj (h.symm.trans hid)
    exact ⟨x.1, x.2, htarget, hsent hno⟩
  case tells =>
    constructor
    · rintro htells ⟨err, h⟩
      exact hnamed (htells.mpr (hheld err h))
    · intro hno
      rw [hsent hno]
      exact iff_of_false hnamed (List.cons_ne_nil _ _)

/-- **What the id of a call tells**, whether or not others close the endpoint while it is made or take
no more messages from its queue. -/
theorem identified (hfresh : (⟨e.nextId⟩ : RequestId) ∉ e.waiting) (hcall : o.isCall = true)
    (now : Nat) (w : Meanwhile) :
    ∃ c, (o.placeApart now e w).2 = .call c ∧
      Identified e w o c (queuedIn (o.placeApart now e w).1.2) := by
  cases htarget : o.target e with
  | error err =>
      rw [placeApart_of_unmeant hcall htarget]
      exact ⟨_, rfl, identified_of_unmeant htarget⟩
  | ok x =>
      obtain ⟨c, hc, hid⟩ := exists_call now w hcall htarget
      refine ⟨c, hc, identified_of_named htarget hid ?sent ?held
        (delivered_iff_held hfresh hcall htarget hc)⟩
      case sent => exact fun hno => (starts_of_not_held now hcall htarget hno).queued
      case held =>
        intro err h
        obtain ⟨b, hfails⟩ := fails_of_held now hfresh hcall h
        exact hfails.queued

end Opening

/-! ## Calls that acts make -/

/-- The start of the call that an act makes. -/
def Act.opening? : Act η → Option Opening
  | .op (.invoke i method args) => some (.invoke i method args)
  | .op (.request proxy method args) => some (.request proxy method args)
  | _ => none

theorem Act.isCall_of_opening {a : Act η} {o : Opening} (h : a.opening? = some o) :
    o.isCall = true := by
  unfold opening? at h
  split at h
  · cases h
    rfl
  · cases h
    rfl
  · cases h

theorem Act.opening_of_asks {a : Act η} (ha : a.asks = true) : ∃ o, a.opening? = some o := by
  unfold asks at ha
  split at ha
  · exact ⟨_, rfl⟩
  · exact ⟨_, rfl⟩
  · cases ha

namespace Host

variable [Handler η] {h : Host η} {a : Act η}

/-- **An act that makes a call starts it**, unless all ids have been handed out. -/
theorem step_of_opening {o : Opening} (ha : a.opening? = some o) (hn : h.endpoint.nextId ≠ 0) :
    (h.step a).2 = (o.place h.now h.endpoint).1.2 ∧
      ∃ q : Asked, (o.place h.now h.endpoint).2 = .call q.call ∧
        (h.step a).1.calls = h.calls.map (Asked.hear (h.step a).2) ++ [q] := by
  unfold Act.opening? at ha
  split at ha
  · next i method args =>
      cases ha
      simp only [step, operate, Opening.place, if_neg hn]
      cases h.endpoint.invoke i method args with
      | error err =>
          refine ⟨rfl, ⟨i.id, method, args, .failed err⟩, rfl, ?_⟩
          exact congrArg (· ++ _) (List.map_id h.calls).symm
      | ok r => exact ⟨rfl, _, rfl, List.map_append⟩
  · next proxy method args =>
      cases ha
      simp only [step, operate, Opening.place, if_neg hn]
      exact ⟨rfl, _, rfl, List.map_append⟩
  · cases ha

theorem step_of_spent {o : Opening} (ha : a.opening? = some o) (hn : h.endpoint.nextId = 0) :
    h.step a = (h, []) := by
  unfold Act.opening? at ha
  split at ha
  · exact if_pos hn
  · exact if_pos hn
  · cases ha

/-- A call that is there after an act and was not there before has been started by the act. -/
theorem exists_opening {k : Nat} {q : Asked} (hk : h.calls[k]? = none)
    (hq : (h.step a).1.calls[k]? = some q) :
    h.endpoint.nextId ≠ 0 ∧ ∃ o, a.opening? = some o ∧
      (h.step a).2 = (o.place h.now h.endpoint).1.2 ∧
      (o.place h.now h.endpoint).2 = .call q.call := by
  have hle := List.getElem?_eq_none_iff.mp hk
  have hlt := (List.getElem?_eq_some_iff.mp hq).1
  cases ha : a.asks with
  | false =>
      have hlen := congrArg List.length (h.settles_step ha).accounts
      simp only [accounts, List.length_map] at hlen
      omega
  | true =>
      obtain ⟨o, ho⟩ := Act.opening_of_asks ha
      have hn : h.endpoint.nextId ≠ 0 := by
        intro hn
        rw [step_of_spent ho hn, hk] at hq
        cases hq
      obtain ⟨hevents, q', hcall, hcalls⟩ := step_of_opening ho hn
      refine ⟨hn, o, ho, hevents, ?_⟩
      rw [hcalls, List.getElem?_append_right (by rwa [List.length_map])] at hq
      rw [hcall, List.mem_singleton.mp (List.mem_of_getElem? hq)]

/-- The requests that an act queues have ids that no call has had before. -/
theorem Sound.issued_lt_of_asksIn (hh : h.Sound) {id : RequestId}
    (hid : id ∈ asksIn (queuedIn (h.step a).2)) : h.endpoint.issued < id.val.toNat := by
  obtain ⟨o, ho, hask⟩ := mem_asksIn.mp hid
  rw [hh.queuedIn_step, Option.mem_toList] at ho
  exact (new_of_asks ho hask).1

end Host

/-- Of the calls with an id just those that are held do not ask. -/
theorem Opening.Identified.mem_asksIn {e : Endpoint η} {w : Meanwhile} {o : Opening} {c : Call}
    {queued : List Outbound} (h : Identified e w o c queued) {id : RequestId}
    (hid : c.id = some id) : id ∈ asksIn queued ↔ ¬∃ err, o.Held e w err := by
  constructor
  · rintro hask ⟨err, hheld⟩
    rw [(h.held err hheld).2] at hask
    exact List.not_mem_nil hask
  · intro hheld
    obtain ⟨proxy, args, -, hqueued⟩ := h.sent id hid hheld
    rw [hqueued]
    exact List.mem_singleton_self id

namespace Chronicle

variable [Handler η]

/-- What the id of the call `k`, which is `q` by now, tells of the moment `m` at which the call was
made, as `o` says. -/
structure Reports (x : Chronicle η) (k : Nat) (q : Asked) (m : Moment η) (o : Opening) : Prop where
  past : m ∈ x.past
  before : m.host.calls[k]? = none
  act : m.act.opening? = some o
  /-- The call has the id that it had at first. -/
  identified : ∃ q₀, m.after.calls[k]? = some q₀ ∧ q₀.call.id = q.call.id ∧
    Opening.Identified m.host.endpoint {} o q₀.call (queuedIn m.events)
  /-- A request has been queued under the id unless the call was held. -/
  asked : ∀ id, q.call.id = some id →
    (id ∈ asksIn (queuedIn x.events) ↔ ¬∃ err, o.Held m.host.endpoint {} err)

/-- Every run leaves a host that is ready. -/
theorem ready_run (c : Config) (acts : List (Act η)) :
    ((ofConfig c).run acts : Chronicle η).host.Ready :=
  (invariant (P := Host.Ready) (Host.ready_ofConfig c) (fun _ a hr => hr.step a) acts).1

variable {x : Chronicle η} {a : Act η} {q : Asked}

theorem mem_asksIn_act {id : RequestId} :
    id ∈ asksIn (queuedIn (x.act a).events) ↔
      id ∈ asksIn (queuedIn x.events) ∨ id ∈ asksIn (queuedIn (x.host.step a).2) := by
  rw [events_act, queuedIn_append, asksIn_append, List.mem_append]

/-- No later act queues a request under the id of a call. -/
theorem Reports.act_of_alike (hs : x.host.Sound) {k : Nat} {m : Moment η} {o : Opening} {q' : Asked}
    (hq : x.host.calls[k]? = some q) (hid : q'.call.id = q.call.id) (h : x.Reports k q m o) :
    (x.act a).Reports k q' m o where
  past := List.mem_append_left _ h.past
  before := h.before
  act := h.act
  identified := hid ▸ h.identified
  asked := by
    intro id hid'
    rw [hid] at hid'
    have hmem : q.account ∈ x.host.accounts := List.mem_map_of_mem (List.mem_of_getElem? hq)
    have hissued := hs.issued id (List.mem_filterMap.mpr ⟨q.account, hmem, hid'⟩)
    rw [← h.asked id hid', mem_asksIn_act]
    refine or_iff_left fun hnew => ?_
    have hlt := hs.issued_lt_of_asksIn hnew
    omega

/-- What the id of a new call tells. -/
theorem reports_new (hr : x.host.Ready) (hx : x.Numbered) {k : Nat}
    (hk : x.host.calls[k]? = none) (hq : (x.host.step a).1.calls[k]? = some q) :
    ∃ o, (x.act a).Reports k q ⟨x.host, a⟩ o := by
  obtain ⟨hn, o, ho, hevents, hcall⟩ := Host.exists_opening hk hq
  have hfree := hr.sound.next_not_waiting hr.positive
  obtain ⟨c, hc, hidentified⟩ :=
    Opening.identified hfree (Act.isCall_of_opening ho) x.host.now {}
  rw [Opening.placeApart_alone, ← hevents] at hidentified
  rw [Opening.placeApart_alone, hcall] at hc
  obtain rfl := Receipt.call.inj hc
  refine ⟨o, List.mem_append_right _ List.mem_cons_self, hk, ho, ⟨q, hq, rfl, hidentified⟩,
    fun id hid => ?_⟩
  rw [mem_asksIn_act, ← hidentified.mem_asksIn hid]
  refine or_iff_right fun hold => ?_
  -- the id has been drawn only now
  have hissued := hx.issued id hold
  have hnext := Endpoint.toNat_nextId hn
  rw [hidentified.named id hid] at hissued
  dsimp only at hissued
  omega

/-- **The ids of all calls that a run makes.** -/
theorem reports_run (c : Config) (acts : List (Act η)) :
    let x : Chronicle η := (ofConfig c).run acts
    ∀ (k : Nat) (q : Asked), x.host.calls[k]? = some q → ∃ m o, x.Reports k q m o := by
  induction acts using List.reverseRecOn with
  | nil => exact fun k q hq => absurd hq.symm (Option.some_ne_none q)
  | append_singleton acts a ih =>
      have hr := ready_run (η := η) c acts
      intro x k q' hq'
      have hx : x = ((ofConfig c).run acts).act a := run_concat acts a (ofConfig c)
      rw [hx] at hq' ⊢
      cases hq : ((ofConfig c).run acts : Chronicle η).host.calls[k]? with
      | some q =>
          obtain ⟨m, o, hreports⟩ := ih k q hq
          obtain ⟨q₁, hq₁, hcarries⟩ := (Host.continues_step _ a).earlier k q hq
          obtain rfl := Option.some.inj (hq'.symm.trans hq₁)
          exact ⟨m, o, hreports.act_of_alike hr.sound hq hcarries.alike.id⟩
      | none => exact ⟨_, reports_new hr (numbered c acts) hq hq'⟩

/-- What the ids of calls tell at an endpoint. -/
structure Identities (x : Chronicle η) : Prop where
  /-- Of every call that could be made now, in whatever way, and whether or not others close the
  endpoint meanwhile or take no more messages from its queue, -/
  next : ∀ (o : Opening) (w : Meanwhile), o.isCall = true →
    ∃ c, (o.placeApart x.host.now x.host.endpoint w).2 = .call c ∧
      o.Identified x.host.endpoint w c
        (queuedIn (o.placeApart x.host.now x.host.endpoint w).1.2)
  /-- whose id would be its own, -/
  fresh : ∀ q ∈ x.host.calls, q.call.id ≠ some ⟨x.host.endpoint.nextId⟩
  /-- and of every call that has been made. -/
  made : ∀ (k : Nat) (q : Asked), x.host.calls[k]? = some q → ∃ m o, x.Reports k q m o

/-- **The id of a call tells that its request has been queued, unless the call was held**: a call
that the endpoint refuses or that others stop has its id already. -/
theorem identities (c : Config) (acts : List (Act η)) : Identities ((ofConfig c).run acts) := by
  have hr := ready_run (η := η) c acts
  have hfree := hr.sound.next_not_waiting hr.positive
  exact ⟨fun o w hcall => Opening.identified hfree hcall _ w, hr.sound.next_fresh hr.positive,
    reports_run c acts⟩

/-- A call that finds the endpoint full has an id although nothing has been queued. -/
theorem named_unsent :
    let x := (ofConfig { side := .main, maxInFlight := 0 } : Chronicle Service).run
      [.op (.invoke ⟨⟨6⟩, .ext, "commands"⟩ "echo" [.int (.ofNat 1 (by decide))])]
    ∃ q, x.host.calls = [q] ∧ q.call.id = some ⟨1⟩ ∧
      q.call.delivered = some (.error (.tooManyInFlight 0 0)) ∧ queuedIn x.events = [] ∧
      ¬(q.call.id = none ↔ queuedIn x.events = []) :=
  ⟨_, rfl, rfl, rfl, rfl, fun h => absurd (h.mpr rfl) (Option.some_ne_none _)⟩

end Chronicle

end PeerRpc
