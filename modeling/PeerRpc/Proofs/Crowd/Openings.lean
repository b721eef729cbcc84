import Mathlib.Logic.Function.Iterate
import PeerRpc.Proofs.Crowd.Queue
import PeerRpc.Proofs.Host.Terms

/-!
# PeerRpc.Proofs.Crowd.Openings -- starts that overlap are whole or nothing, but not counted

Each step of a start touches the entry of its own call and the end of the queue and nothing else
(`Endpoint.rest_of_advance`, `Endpoint.others_of_advance`). So a start that is over has either put
its message into the queue, once, or has left nothing behind and told its user, whatever others do
between its steps, be it that they start calls of their own (`Crowd.Told`).

How many calls wait is another matter. A call looks whether there is room before it has its entry,
and others may look before it has. With `n + 1` starts between the look and the entry at once, up to
`n` calls more than may come to wait (`Crowd.bounded`), and they do so for good (`Crowd.overfull`).
Only where no two starts are there at once does the bound hold.
-/

namespace PeerRpc

variable {η : Type}

/-- Of which error the user of a start is told that does not put its message into the queue. -/
def Stage.verdict : Stage → CallError
  | refused err => err
  | _ => .disconnected

/-! ## What a step of a start touches -/

namespace Endpoint

variable {e : Endpoint η} {gone : Bool} {s : Start} {r : Endpoint.Step η × Stage}

/-- The entries of others stay. -/
theorem others_of_advance (hr : e.Advance gone s r) :
    r.1.1.pending.filter (fun p => some p.1 ≠ s.id?) =
      e.pending.filter fun p => some p.1 ≠ s.id? := by
  cases hr with
  | rests | looks | refused | sends => rfl
  | @enters id proxy method args admitted message =>
      have hid : s.id? = some id := by rw [Start.id?, message]; rfl
      simp [enter, hid]
  | withdraws stopped call =>
      rw [settle_fst, List.filter_filter]
      refine List.filter_congr fun p _ => ?_
      simp [call]

/-- A call that is known is not refused any more. -/
theorem verdict_of_known (hr : e.Advance gone s r) (hknown : s.stage.isKnown = true)
    (hcall : s.id? ≠ none) : r.2.verdict = s.stage.verdict ∧
      ∀ err, r.2 = .refused err → s.stage = .refused err := by
  cases hr with
  | rests same => exact ⟨congrArg _ same.symm, fun err h => same.trans h⟩
  | refused why =>
      rcases why.reveals with hreveals | hnone
      · rw [(Stage.isKnown_of_reveals hreveals).1] at hknown
        cases hknown
      · exact absurd hnone hcall
  | looks looks =>
      cases looks with
      | finds stage | admits stage | clearsNotice stage | clears stage | stops stage
      | misses stage => exact ⟨by rw [stage]; rfl, fun err h => by cases h⟩
  | enters stage | sends stage | withdraws stage => exact ⟨by rw [stage]; rfl, fun err h => by cases h⟩

/-- A step of a start tells nobody but its own user, and only when it fails. -/
theorem result_of_advance (hr : e.Advance gone s r) {id : RequestId} {res : CallResult}
    (h : resultFor? r.1.2 id = some res) : s.id? = some id ∧ res = .error r.2.verdict := by
  cases hr with
  | rests | looks | enters | sends => cases h
  | @refused err why =>
      unfold turnDown at h
      cases hid : s.id? with
      | none =>
          rw [hid] at h
          cases h
      | some id' =>
          rw [hid] at h
          obtain ⟨heq, hres⟩ : id' = id ∧ Except.error err = res := by
            simpa [resultFor?, Event.settles?] using h
          subst heq hres
          exact ⟨rfl, rfl⟩
  | @withdraws id' stopped call =>
      rw [settle_snd] at h
      cases hfind : e.pending.find? (fun p => p.1 = id') with
      | none =>
          rw [hfind] at h
          cases h
      | some p =>
          rw [hfind] at h
          obtain ⟨heq, hres⟩ : id' = id ∧ Except.error CallError.disconnected = res := by
            simpa [resultFor?, Event.settles?] using h
          subst heq hres
          exact ⟨call, rfl⟩

/-- A call that looks how many wait is refused as one too many exactly if at least as many wait as
may. -/
theorem looks_full (hstage : s.stage = .found) (hcall : s.id? ≠ none) (gone : Bool) :
    (∃ current max, (e.advance gone s).2 = .refused (.tooManyInFlight current max)) ↔
      e.config.maxInFlight ≤ e.pendingCount := by
  obtain ⟨p, hentry⟩ : ∃ p, s.message.entry? = some p := by
    refine Option.ne_none_iff_exists'.mp fun hnone => hcall ?_
    rw [Start.id?, Message.asks?_eq_entry?, hnone]
    rfl
  have hadvance : e.advance gone s = if e.config.maxInFlight ≤ e.pendingCount then
      e.turnDown s (.tooManyInFlight e.pendingCount e.config.maxInFlight)
    else e.examine s .admitted := by simp only [advance, hstage, hentry]
  rw [hadvance]
  by_cases hfull : e.config.maxInFlight ≤ e.pendingCount
  · rw [if_pos hfull]
    exact iff_of_true ⟨_, _, rfl⟩ hfull
  · rw [if_neg hfull]
    refine iff_of_false ?_ hfull
    rintro ⟨current, max, hrefused⟩
    unfold examine at hrefused
    split at hrefused <;> cases hrefused

end Endpoint

/-! ## What the user of a start is told -/

/-- An answer to the request with this id has arrived. -/
def Chronicle.Answered (x : Chronicle η) (id : RequestId) : Prop :=
  ∃ m ∈ x.past, ∃ msg, m.host.receives? m.act = some msg ∧ (msg.answers? (some id)).isSome = true

theorem Chronicle.Answered.act [Handler η] {x : Chronicle η} {id : RequestId}
    (h : x.Answered id) (a : Act η) : (x.act a).Answered id := by
  obtain ⟨m, hm, hmsg⟩ := h
  exact ⟨m, List.mem_append_left _ hm, hmsg⟩

/-- The calls after a step of a start. -/
theorem Host.mem_calls_advance {h : Host η} {gone : Bool} {s : Start}
    {r : Endpoint.Step η × Stage} (hr : h.endpoint.advance gone s = r) {q' : Asked}
    (hq' : q' ∈ (h.advance gone s).1.calls) :
    ∃ q, (q ∈ h.calls ∨ h.revealed? s r.2 = some q) ∧ q'.call.id = q.call.id ∧
      q'.call.delivered = q.call.delivered.or (q.call.id.bind (resultFor? r.1.2)) := by
  rw [advance_eq hr] at hq'
  obtain ⟨q, hq, rfl⟩ := List.mem_map.mp hq'
  have hacc := q.account_hear r.1.2
  refine ⟨q, ?_, congrArg Account.id hacc, congrArg Account.result hacc⟩
  rcases List.mem_append.mp hq with hq | hq
  · exact Or.inl hq
  · exact Or.inr (Option.mem_toList.mp hq)

namespace Crowd

/-- What is told to the users of starts that have not put their messages into the queue. A call that
has its entry may have been answered by a peer that makes ids up. -/
def Told (x : Crowd η) : Prop :=
  ∀ s ∈ x.starts, s.stage ≠ .sent → ∀ id, s.id? = some id → ∀ q ∈ x.host.calls,
    q.call.id = some id → ∀ r, q.call.delivered = some r →
      r = .error s.stage.verdict ∨
        (∀ err, s.stage ≠ .refused err) ∧ x.chronicle.Answered id

namespace Told

variable {x : Crowd η}

theorem advance (hx : x.Sound) (ht : x.Told) (t : Nat) (gone : Bool) : (x.advance t gone).Told := by
  cases hs : x.starts[t]? with
  | none =>
      rw [advance_of_none hs]
      exact ht
  | some s =>
      have hmem := List.mem_of_getElem? hs
      have hr := x.host.endpoint.advance_cases gone s
      rw [advance_of_some hs]
      intro s' hs' hsent id hid q' hq' hqid res hres
      obtain ⟨q, hq, hsame, hd⟩ := Host.mem_calls_advance rfl hq'
      rw [hqid] at hsame
      rw [← hsame, hres] at hd
      -- whoever hears of a result now is the user of this start
      have hnow : resultFor? (x.host.endpoint.advance gone s).1.2 id = some res →
          res = .error s'.stage.verdict := by
        intro hnew
        obtain ⟨hsid, rfl⟩ := Endpoint.result_of_advance hr hnew
        rcases (Start.mem_set hs _).mp hs' with rfl | ⟨i, hit, hi⟩
        · rfl
        · exact absurd (Start.index_eq hx.nodup hi hs hid hsid) hit
      cases hold : q.call.delivered with
      | none =>
          rw [hold, Option.none_or] at hd
          exact Or.inl (hnow hd.symm)
      | some res₀ =>
          rw [hold, Option.some_or] at hd
          obtain rfl := Option.some.inj hd
          rcases hq with hq | hq
          · rcases (Start.mem_set hs _).mp hs' with rfl | ⟨i, -, hi⟩
            · obtain ⟨s₁, hs₁, hknown, hsid, -⟩ := hx.exists_start hq
              obtain rfl := Start.eq_of_id hx.nodup hs₁ hmem (hsid.trans hsame.symm) hid
              have hcall : s₁.id? ≠ none := by rw [show s₁.id? = some id from hid]; nofun
              obtain ⟨hverdict, hrefused⟩ := Endpoint.verdict_of_known hr hknown hcall
              have hunsent : s₁.stage ≠ .sent := by
                intro h
                have hover : s₁.stage.isOver = true := by rw [h]; rfl
                exact hsent ((congrArg Prod.snd
                  (x.host.endpoint.advance_of_isOver gone hover)).trans h)
              rcases ht s₁ hmem hunsent id hid q hq hsame.symm _ hold with htold | ⟨hne, hanswered⟩
              · exact Or.inl (htold.trans (congrArg _ hverdict.symm))
              · exact Or.inr ⟨fun err h => hne err (hrefused err h), hanswered⟩
            · exact ht s' (List.mem_of_getElem? hi) hsent id hid q hq hsame.symm _ hold
          · -- a call has no result before it is known
            obtain ⟨-, hasked⟩ := Option.ite_none_right_eq_some.mp hq
            rw [Start.delivered_of_asked hasked] at hold
            cases hold

theorem start (hx : x.Sound) (ht : x.Told) (o : Opening) : (x.start o).Told := by
  have hbegins := x.begins_start o
  generalize x.start o = y at hbegins
  cases hbegins with
  | fails => exact ht
  | call proxy args target isCall next =>
      intro s hs hsent id hid q hq hqid r hr
      rcases List.mem_append.mp hs with hs | hs
      · exact ht s hs hsent id hid q hq hqid r hr
      · -- nobody has called under the id before
        rw [List.mem_singleton.mp hs] at hid
        obtain rfl := Option.some.inj hid
        exact absurd (List.mem_filterMap.mpr ⟨q.account, List.mem_map_of_mem hq, hqid⟩)
          (hx.agrees.fresh next)
  | notice proxy args target isCall =>
      intro s hs hsent id hid q hq hqid r hr
      rcases List.mem_append.mp hs with hs | hs
      · exact ht s hs hsent id hid q hq hqid r hr
      · rw [List.mem_singleton.mp hs] at hid
        cases hid

theorem act [Handler η] (hx : x.Sound) (hp : x.Posted) (ht : x.Told) {a : Act η}
    (ha : x.allows a = true) : Told { x with chronicle := x.chronicle.act a } := by
  intro s hs hsent id hid q' hq' hqid res hres
  have hsettles := x.host.settles_step (a.asks_of_opens (opens_of_allows ha))
  obtain ⟨k, hk'⟩ := List.mem_iff_getElem?.mp hq'
  have hlength := congrArg List.length hsettles.accounts
  simp only [Host.accounts, List.length_map] at hlength
  obtain ⟨q, hk⟩ : ∃ q, x.host.calls[k]? = some q := by
    obtain ⟨hlt, -⟩ := List.getElem?_eq_some_iff.mp hk'
    exact ⟨_, List.getElem?_eq_getElem (hlength ▸ hlt)⟩
  obtain ⟨q'', hk'', hacc, hd⟩ := hx.agrees.call_step hk a
  obtain rfl := Option.some.inj (hk'.symm.trans hk'')
  have hmem := List.mem_of_getElem? hk
  have hid' : q.call.id = some id := (congrArg Account.id hacc).symm.trans hqid
  rw [hres] at hd
  cases hold : q.call.delivered with
  | some res₀ =>
      rw [hold, Option.some_or] at hd
      obtain rfl := Option.some.inj hd
      exact (ht s hs hsent id hid q hmem hid' _ hold).imp_right fun h => ⟨h.1, h.2.act a⟩
  | none =>
      rw [hold, Option.none_or] at hd
      obtain ⟨z, hz, rfl⟩ := Option.map_eq_some_iff.mp hd.symm
      have hover : s.stage.isOver ≠ true := fun hover =>
        hx.left s hs hover hsent id hid ((hx.agrees.mem_waiting_iff hmem hid').mpr hold)
      have hverdict : s.stage.verdict = .disconnected := by
        cases hstage : s.stage with
        | refused err =>
            rw [hstage] at hover
            exact absurd rfl hover
        | _ => rfl
      have hnamed : a.names? ≠ some k := fun h =>
        hover (isOver_of_allows ha h hk hs hid' hid)
      cases Asked.endedBy hz with
      | cancelled | dropped | timedOut => exact absurd rfl hnamed
      | closed | lost => exact Or.inl (congrArg _ hverdict.symm)
      | answered frame m reply isOpen decodes answers =>
          refine Or.inr ⟨fun err h => hover (by rw [h]; rfl), ⟨x.host, _⟩,
            List.mem_append_right _ (List.mem_singleton_self _), m, ?_, ?_⟩
          · simp only [Host.receives?, isOpen, decodes, Except.toOption, if_true]
          · rw [← hid', answers]
            rfl
      | undeliverable o err sending goesOn request =>
          -- the channel cannot have been given what has not been sent
          have hqueued := List.mem_append_left x.host.endpoint.outbound (hp.sending o sending)
          have hask : id ∈ asksIn x.queued := by
            refine mem_asksIn.mpr ⟨o, hqueued, ?_⟩
            rw [hid'] at request
            exact Message.isRequest_eq_true.mp request
          obtain ⟨s', hs', hstage, hid₁⟩ := hp.mem_asks.mp hask
          obtain rfl := Start.eq_of_id hx.nodup hs hs' hid hid₁
          exact absurd hstage hsent

theorem stride [Handler η] (hx : x.Sound) (hp : x.Posted) (ht : x.Told) (a : Stride η) :
    (x.stride a).Told :=
  stride_cases ht (fun _ ha => ht.act hx hp ha) (ht.start hx) (ht.advance hx) a

end Told

/-- **The user of a start that is over and was not sent has been told of an error**, unless the peer
has answered a request that it was not sent. -/
theorem told [Handler η] (c : Config) (strides : List (Stride η)) :
    ((ofConfig c).run strides).Told :=
  (run_induction (P := fun x => x.Sound ∧ x.Posted ∧ x.Told)
    ⟨sound_ofConfig c, posted_ofConfig c, fun _ hs => absurd hs List.not_mem_nil⟩
    (fun _ a hx => ⟨hx.1.stride a, hx.2.1.stride hx.1 a, hx.2.2.stride hx.1 hx.2.1 a⟩) strides).2.2

end Crowd

/-! ## How many calls wait -/

/-- Whether a call has found room and has no entry yet. -/
def Stage.isAdmitted : Stage → Bool
  | admitted => true
  | _ => false

/-- A step of a start takes the place that it has found, and finds one only if there is room. -/
theorem Endpoint.room_of_advance {e : Endpoint η} {gone : Bool} {s : Start}
    {r : Endpoint.Step η × Stage} (hr : e.Advance gone s r) :
    r.1.1.pendingCount + r.2.isAdmitted.toNat ≤ e.pendingCount + s.stage.isAdmitted.toNat ∨
      e.pendingCount < e.config.maxInFlight ∧ r.1.1.pendingCount = e.pendingCount ∧
        r.2.isAdmitted = true := by
  cases hr with
  | rests same =>
      rw [same]
      exact Or.inl (Nat.le_refl _)
  | looks looks =>
      cases looks with
      | admits _ _ room => exact Or.inr ⟨room, rfl, rfl⟩
      | _ => exact Or.inl (Nat.le_add_right _ _)
  | refused => exact Or.inl (Nat.le_add_right _ _)
  | enters admitted =>
      rw [admitted]
      refine Or.inl (Nat.le_of_eq ?_)
      simp [pendingCount, enter, Stage.isAdmitted]
  | sends => exact Or.inl (Nat.le_add_right _ _)
  | withdraws =>
      refine Or.inl (Nat.le_trans ?_ (Nat.le_add_right _ _))
      rw [settle_fst]
      exact List.length_filter_le _ _

namespace Crowd

/-- How many calls have found room and have no entry yet. -/
def admitted (x : Crowd η) : Nat := x.starts.countP fun s => s.stage.isAdmitted

theorem admitted_advance {x : Crowd η} {t : Nat} {s : Start} (hs : x.starts[t]? = some s)
    (gone : Bool) :
    (x.advance t gone).admitted + s.stage.isAdmitted.toNat =
      x.admitted + (x.host.endpoint.advance gone s).2.isAdmitted.toNat := by
  obtain ⟨ht, rfl⟩ := List.getElem?_eq_some_iff.mp hs
  rw [advance_of_some hs]
  unfold admitted
  dsimp only
  rw [List.countP_set ht]
  have hpos : (x.starts[t]).stage.isAdmitted = true →
      0 < x.starts.countP fun s => s.stage.isAdmitted := fun h =>
    List.countP_pos_iff.mpr ⟨_, List.getElem_mem ht, h⟩
  cases hold : (x.starts[t]).stage.isAdmitted <;>
    cases (x.host.endpoint.advance gone x.starts[t]).2.isAdmitted <;>
    simp_all

theorem admitted_start (x : Crowd η) (o : Opening) : (x.start o).admitted = x.admitted := by
  have hbegins := x.begins_start o
  generalize x.start o = y at hbegins
  cases hbegins with
  | fails => rfl
  | call | notice => simp [admitted, Stage.isAdmitted]

theorem pendingCount_start (x : Crowd η) (o : Opening) :
    (x.start o).host.endpoint.pendingCount = x.host.endpoint.pendingCount := by
  have hbegins := x.begins_start o
  generalize x.start o = y at hbegins
  cases hbegins <;> rfl

variable [Handler η]

theorem config_run (c : Config) (strides : List (Stride η)) :
    ((ofConfig c).run strides).host.endpoint.config = c := by
  refine run_induction (P := fun x => x.host.endpoint.config = c) rfl (fun x a hx => ?_) strides
  refine stride_cases (P := fun y => y.host.endpoint.config = c) hx
    (fun a _ => (x.host.continues_step a).config.trans hx) (fun o => ?_) (fun t gone => ?_) a
  · have hbegins := x.begins_start o
    generalize x.start o = y at hbegins
    cases hbegins <;> exact hx
  · cases hs : x.starts[t]? with
    | none => rwa [advance_of_none hs]
    | some s =>
        rw [advance_of_some hs]
        have hrest := Endpoint.rest_of_advance (x.host.endpoint.advance_cases gone s)
        exact (congrArg Endpoint.config hrest).trans hx

/-- **Calls that have found room at once may all come to wait.** As long as no more than `n + 1`
calls are between their look and their entry, no more than `n` calls wait that should not. -/
theorem bounded (c : Config) (n : Nat) (strides : List (Stride η))
    (hn : ∀ xs, xs <+: strides → ((ofConfig c : Crowd η).run xs).admitted ≤ n + 1) :
    let x := (ofConfig c).run strides
    x.host.endpoint.pendingCount + x.admitted ≤ c.maxInFlight + n := by
  induction strides using List.reverseRecOn with
  | nil => exact Nat.zero_le _
  | append_singleton strides a ih =>
      have hold := ih fun xs hxs => hn xs (hxs.trans (List.prefix_append _ _))
      have hnow := hn _ List.prefix_rfl
      have hconfig := config_run (η := η) c strides
      rw [run_concat] at hnow ⊢
      generalize (ofConfig c).run strides = x at hold hnow hconfig
      dsimp only at hold ⊢
      cases a with
      | act a =>
          simp only [stride]
          split
          · next hallows =>
              have hbalanced := (x.host.settles_step
                (a.asks_of_opens (opens_of_allows hallows))).balanced
              have hless : (x.host.step a).1.endpoint.pendingCount ≤
                  x.host.endpoint.pendingCount := by
                unfold Endpoint.pendingCount
                rw [hbalanced.pending]
                exact List.length_filter_le _ _
              exact Nat.le_trans (Nat.add_le_add_right hless _) hold
          · exact hold
      | start o =>
          show (x.start o).host.endpoint.pendingCount + (x.start o).admitted ≤ _
          rw [pendingCount_start, admitted_start]
          exact hold
      | advance t gone =>
          simp only [stride] at hnow ⊢
          cases hs : x.starts[t]? with
          | none => rwa [advance_of_none hs]
          | some s =>
              have hcount := admitted_advance hs gone
              have hpending : (x.advance t gone).host.endpoint.pendingCount =
                  (x.host.endpoint.advance gone s).1.1.pendingCount := by
                rw [advance_of_some hs]
                rfl
              rw [hpending]
              rcases Endpoint.room_of_advance (x.host.endpoint.advance_cases gone s) with
                hless | ⟨hroom, hsame, -⟩
              · omega
              · rw [hconfig] at hroom
                omega

end Crowd

/-! ## Starts that do not overlap -/

/-- A host and a start at it after a step that nobody comes in between. -/
def Start.onward (p : Host η × Start) : Host η × Start :=
  ((p.1.advance false p.2).1, { p.2 with stage := (p.1.advance false p.2).2 })

namespace Crowd

/-- The last start takes its steps, and nobody comes in between. -/
theorem run_onward [Handler η] (x : Crowd η) (p : Host η × Start) (starts : List Start) (n : Nat) :
    ({ chronicle := { x.chronicle with host := p.1 }, starts := starts ++ [p.2] } : Crowd η).run
        (List.replicate n (.advance starts.length false)) =
      let p' := Start.onward^[n] p
      { chronicle := { x.chronicle with host := p'.1 }, starts := starts ++ [p'.2] } := by
  induction n generalizing p with
  | zero => rfl
  | succ n ih =>
      have hlast : (starts ++ [p.2])[starts.length]? = some p.2 := List.getElem?_concat_length
      rw [List.replicate_succ, run_cons]
      show run _ (advance _ _ _) = _
      rw [advance_of_some hlast, List.set_append_right _ _ (Nat.le_refl _), Nat.sub_self]
      exact ih (Start.onward p)

end Crowd

namespace Start

variable {h : Host η} {s : Start} {stage : Stage}

theorem onward_self (hr : h.endpoint.advance false s = ((h.endpoint, []), stage))
    (hnone : h.revealed? s stage = none) : onward (h, s) = (h, { s with stage := stage }) := by
  unfold onward
  rw [Host.advance_eq_self hr hnone]

/-- A start that is over stays as it is. -/
theorem onwards_of_isOver (hover : s.stage.isOver = true) (n : Nat) :
    onward^[n] (h, s) = (h, s) := by
  refine Function.iterate_fixed (onward_self (h.endpoint.advance_of_isOver false hover) ?_) n
  rw [Host.revealed?, Stage.reveals_self]
  rfl

/-- The host at which a start is refused. -/
theorem onward_of_turnDown (err : CallError)
    (hr : h.endpoint.advance false s = h.endpoint.turnDown s err)
    (hreveals : s.stage.reveals (.refused err) = true) :
    onward (h, s) =
      ((({ h with calls := h.calls ++ (s.asked? h.endpoint.config).toList } : Host η).follow
        (h.endpoint.turnDown s err).1).1, { s with stage := .refused err }) := by
  simp only [onward, Host.advance_eq hr, Host.revealed?, Endpoint.turnDown, hreveals, if_true]

/-- A call that nobody comes in between is made as in one step. -/
theorem onward_call (h : Host η) {proxy : ProxyId} {method : String} {args : List Value}
    (hstage : s.stage = .begun) (hsince : s.since = h.now)
    (hmessage : s.message = .request ⟨h.endpoint.nextId⟩ proxy method args) :
    (onward^[5] (({ h with
      endpoint := { h.endpoint with nextId := h.endpoint.nextId + 1 } } : Host η), s)).1 =
      (h.begin proxy method args (h.endpoint.request proxy method args)).1 := by
  obtain ⟨message, since, stage⟩ := s
  obtain rfl : stage = .begun := hstage
  obtain rfl : since = h.now := hsince
  obtain rfl : message = .request ⟨h.endpoint.nextId⟩ proxy method args := hmessage
  rw [Host.begin, Endpoint.request_id]
  -- the call looks at the endpoint with the next number
  generalize hh₀ : ({ h with
    endpoint := { h.endpoint with nextId := h.endpoint.nextId + 1 } } : Host η) = h₀
  have hopen₀ : h₀.endpoint.isOpen = h.endpoint.isOpen := by rw [← hh₀]
  generalize hm : Message.request ⟨h.endpoint.nextId⟩ proxy method args = m
  have hentry : m.entry? = some (⟨h.endpoint.nextId⟩, proxy) := by rw [← hm]; rfl
  cases hopen : h.endpoint.isOpen with
  | false =>
      have hr : h.endpoint.refusal? proxy method args = some .disconnected := by
        simp [Endpoint.refusal?, hopen]
      rw [Endpoint.request_of_refusal hr, Function.iterate_succ_apply,
        onward_of_turnDown .disconnected ?_ rfl, onwards_of_isOver rfl]
      · subst hh₀ hm
        rfl
      · simp [Endpoint.advance, hopen₀, hopen]
  | true =>
      have hfound : onward (h₀, ⟨m, h.now, .begun⟩) = (h₀, ⟨m, h.now, .found⟩) :=
        onward_self (by simp [Endpoint.advance, hopen₀, hopen]) rfl
      rw [Function.iterate_succ_apply, hfound, Function.iterate_succ_apply]
      by_cases hfull : h.endpoint.config.maxInFlight ≤ h.endpoint.pendingCount
      · have hr : h.endpoint.refusal? proxy method args =
            some (.tooManyInFlight h.endpoint.pendingCount h.endpoint.config.maxInFlight) := by
          simp [Endpoint.refusal?, hopen, hfull]
        rw [Endpoint.request_of_refusal hr, onward_of_turnDown
          (.tooManyInFlight h.endpoint.pendingCount h.endpoint.config.maxInFlight) ?_ rfl,
          onwards_of_isOver rfl]
        · subst hh₀ hm
          rfl
        · subst hh₀ hm
          exact if_pos hfull
      · cases hencode : Codec.encodeMessage m with
        | error err =>
            have hr : h.endpoint.refusal? proxy method args = some (.codec err) := by
              simp [Endpoint.refusal?, hopen, hfull, hm, hencode]
            rw [Endpoint.request_of_refusal hr, onward_of_turnDown (.codec err) ?_ rfl,
              onwards_of_isOver rfl]
            · subst hh₀ hm
              rfl
            · subst hh₀ hm
              refine (if_neg hfull).trans ?_
              simp only [Endpoint.examine, hencode]
        | ok bs =>
            have hr : h.endpoint.refusal? proxy method args = none := by
              simp [Endpoint.refusal?, hopen, hfull, hm, hencode]
            have hadmitted : onward (h₀, ⟨m, h.now, .found⟩) = (h₀, ⟨m, h.now, .admitted⟩) := by
              refine onward_self ?_ rfl
              subst hh₀ hm
              refine (if_neg hfull).trans ?_
              simp only [Endpoint.examine, hencode]
            obtain ⟨h₁, hh₁⟩ : ∃ h₁ : Host η, h₁ = { h₀ with
                endpoint := h₀.endpoint.enter ⟨h.endpoint.nextId⟩ proxy
                calls := h₀.calls ++ [⟨proxy, method, args,
                  { id := some ⟨h.endpoint.nextId⟩, limit := h.endpoint.config.requestTimeout,
                    started := h.now }⟩] } := ⟨_, rfl⟩
            have hentered : onward (h₀, ⟨m, h.now, .admitted⟩) = (h₁, ⟨m, h.now, .entered⟩) := by
              subst hh₁ hh₀ hm
              show ((Host.follow _ (_, [])).1, _) = _
              rw [Host.follow_nil]
              rfl
            have hcleared : onward (h₁, ⟨m, h.now, .entered⟩) = (h₁, ⟨m, h.now, .cleared⟩) := by
              refine onward_self ?_ rfl
              have hopen₁ : h₁.endpoint.isOpen = true := by rw [hh₁, ← hopen, ← hopen₀]; rfl
              simp [Endpoint.advance, hentry, hopen₁]
            have hsent : onward (h₁, ⟨m, h.now, .cleared⟩) =
                ((h₁.follow (h₁.endpoint.put m)).1, ⟨m, h.now, .sent⟩) := by
              have hput : h₁.endpoint.advance false ⟨m, h.now, .cleared⟩ =
                  (h₁.endpoint.put m, .sent) := by simp [Endpoint.advance, hentry]
              unfold onward
              rw [Host.advance_eq_follow hput rfl]
            rw [Endpoint.request_of_none hr, hadmitted]
            show (onward (onward (onward _))).1 = _
            rw [hentered, hcleared, hsent]
            subst hh₁ hh₀ hm
            rfl

/-- A notification that nobody comes in between is sent as in one step. -/
theorem onward_notice (h : Host η) {proxy : ProxyId} {method : String} {args : List Value}
    (hstage : s.stage = .begun) (hmessage : s.message = .notification proxy method args) :
    (onward^[5] (h, s)).1 = (h.attempt (h.endpoint.notifyProxy proxy method args)).1 := by
  obtain ⟨message, since, stage⟩ := s
  obtain rfl : stage = .begun := hstage
  obtain rfl : message = .notification proxy method args := hmessage
  have hentry : Message.entry? (.notification proxy method args) = none := rfl
  rw [Endpoint.notifyProxy_of_telling, Endpoint.telling]
  generalize Message.notification proxy method args = m at hentry
  have hid (stage : Stage) : (⟨m, since, stage⟩ : Start).id? = none := by
    rw [Start.id?, m.asks?_eq_entry?, hentry]
    rfl
  -- no step of a notification makes a call known
  have hself {stage : Stage} (stage' : Stage)
      (hr : h.endpoint.advance false ⟨m, since, stage⟩ = ((h.endpoint, []), stage')) :
      onward (h, ⟨m, since, stage⟩) = (h, ⟨m, since, stage'⟩) :=
    onward_self hr (Host.revealed?_of_notice (hid stage) stage')
  cases hopen : h.endpoint.isOpen with
  | false =>
      rw [Function.iterate_succ_apply, hself (.refused .disconnected) ?_,
        onwards_of_isOver rfl]
      · rfl
      · simp [Endpoint.advance, hopen, Endpoint.turnDown_of_notice _ (hid _)]
  | true =>
      have hfound : onward (h, ⟨m, since, .begun⟩) = (h, ⟨m, since, .found⟩) :=
        hself .found (by simp [Endpoint.advance, hopen])
      rw [Function.iterate_succ_apply, hfound, Function.iterate_succ_apply]
      cases hencode : Codec.encodeMessage m with
      | error err =>
          rw [hself (.refused (.codec err)) ?_, onwards_of_isOver rfl]
          · rfl
          · simp only [Endpoint.advance, hentry, Endpoint.examine, hencode,
              Endpoint.turnDown_of_notice _ (hid _)]
      | ok bs =>
          have hcleared : onward (h, ⟨m, since, .found⟩) = (h, ⟨m, since, .cleared⟩) :=
            hself .cleared (by simp only [Endpoint.advance, hentry, Endpoint.examine, hencode])
          have hsent : onward (h, ⟨m, since, .cleared⟩) =
              ((h.follow (h.endpoint.put m)).1, ⟨m, since, .sent⟩) := by
            have hput : h.endpoint.advance false ⟨m, since, .cleared⟩ =
                (h.endpoint.put m, .sent) := by simp [Endpoint.advance, hentry]
            unfold onward
            rw [Host.advance_eq_follow hput rfl]
          rw [hcleared, Function.iterate_succ_apply, hsent, onwards_of_isOver rfl]
          simp [Except.map, Host.attempt, Endpoint.enqueue, hopen, Endpoint.put]

end Start

namespace Crowd

variable {x : Crowd η} {o : Opening}

/-- The strides of a start that nobody comes in between. -/
def wholly (x : Crowd η) (o : Opening) : List (Stride η) :=
  .start o :: List.replicate 5 (.advance x.starts.length false)

variable [Handler η]

theorem run_wholly_of_error {err : CallError} (h : o.target x.host.endpoint = .error err) :
    x.run (x.wholly o) = x := by
  have hstart : x.start o = x := by simp only [start, h]
  have hadvance : x.advance x.starts.length false = x :=
    advance_of_none (List.getElem?_eq_none (Nat.le_refl _)) false
  rw [wholly, run_cons]
  show run _ (x.start o) = x
  rw [hstart]
  simp only [List.replicate, run_cons, stride, hadvance, run_nil]

/-- **A start that nobody comes in between is an act.** -/
theorem run_alone (hn : x.host.endpoint.nextId ≠ 0) {proxy : ProxyId} {args : List Value}
    (h : o.target x.host.endpoint = .ok (proxy, args)) :
    (x.run (x.wholly o)).host = (x.host.operate
      (if o.isCall then .request proxy o.method args else .notifyProxy proxy o.method args)).1 := by
  rw [wholly, run_cons]
  show (run _ (x.start o)).host = _
  cases hcall : o.isCall with
  | true =>
      simp only [start, h, hcall, hn, if_true, if_false, Host.operate]
      rw [run_onward x (_, _) x.starts]
      exact Start.onward_call x.host rfl rfl rfl
  | false =>
      simp only [start, h, hcall, Bool.false_eq_true, if_false, Host.operate]
      rw [run_onward x (_, _) x.starts]
      exact Start.onward_notice x.host rfl rfl

/-- It leaves the endpoint of a start in one step. -/
theorem endpoint_alone (hn : x.host.endpoint.nextId ≠ 0) (o : Opening) :
    (x.run (x.wholly o)).host.endpoint = (o.place x.host.now x.host.endpoint).1.1 := by
  rw [Opening.place_eq]
  cases h : o.target x.host.endpoint with
  | error err => rw [run_wholly_of_error h]
  | ok y =>
      obtain ⟨proxy, args⟩ := y
      rw [run_alone hn h]
      dsimp only
      cases hcall : o.isCall with
      | true =>
          rw [if_pos rfl, if_pos rfl, Host.operate, if_neg hn]
          rfl
      | false =>
          rw [if_neg Bool.false_ne_true, if_neg Bool.false_ne_true, Host.operate]
          cases x.host.endpoint.notifyProxy proxy o.method args <;> rfl

/-! ## The whole story -/

omit [Handler η] in
/-- The beginning of a start draws a number and touches nothing else. -/
theorem host_start (x : Crowd η) (o : Opening) : ∃ n, (x.start o).host =
    { x.host with endpoint := { x.host.endpoint with nextId := n } } := by
  have hbegins := x.begins_start o
  generalize x.start o = y at hbegins
  cases hbegins with
  | call => exact ⟨_, rfl⟩
  | fails | notice => exact ⟨x.host.endpoint.nextId, rfl⟩

/-- What a step of the start `s` touches: the entry of its own call, and the end of the queue, which
its message joins with the last step. -/
structure Touches (s : Start) (x y : Crowd η) : Prop where
  rest : y.host.endpoint = { x.host.endpoint with
    pending := y.host.endpoint.pending, outbound := y.host.endpoint.outbound }
  others : y.host.endpoint.pending.filter (fun p => some p.1 ≠ s.id?) =
    x.host.endpoint.pending.filter fun p => some p.1 ≠ s.id?
  queued : y.queued = x.queued ∨
    s.stage = .cleared ∧ y.queued = x.queued ++ [{ message := s.message }]

omit [Handler η] in
theorem touches_advance {t : Nat} {s : Start} (hs : x.starts[t]? = some s) (gone : Bool) :
    Touches s x (x.advance t gone) := by
  have hr := x.host.endpoint.advance_cases gone s
  have hendpoint : (x.advance t gone).host.endpoint = (x.host.endpoint.advance gone s).1.1 := by
    rw [advance_of_some hs]
    rfl
  refine ⟨?rest, ?others, ?queued⟩
  case rest =>
    rw [hendpoint]
    exact Endpoint.rest_of_advance hr
  case others =>
    rw [hendpoint]
    exact Endpoint.others_of_advance hr
  case queued => exact (queued_advance_cases hs gone).imp_right fun h => h.2

/-- What is true of the starts of a crowd at an endpoint with the settings `c`. -/
structure Openings (c : Config) (x : Crowd η) : Prop where
  /-- A start that nobody comes in between is a start in one step, -/
  alone : x.host.endpoint.nextId ≠ 0 → ∀ o : Opening,
    (x.run (x.wholly o)).host.endpoint = (o.place x.host.now x.host.endpoint).1.1
  /-- which is whole or nothing, and so is one during which others only close the endpoint or take
  no more messages from its queue. -/
  whole : ∀ (o : Opening) (w : Meanwhile), o.Whole x.host.now x.host.endpoint w
  /-- While the endpoint is open, a call of the other side with plain data is refused as one too many
  exactly if at least as many calls wait as may. -/
  full : x.host.endpoint.isOpen = true → ∀ (o : Opening) (y : ProxyId × List Value),
    o.isCall = true → o.target x.host.endpoint = .ok y →
      ((∃ current max, (o.place x.host.now x.host.endpoint).2.error? =
          some (.tooManyInFlight current max)) ↔
        c.maxInFlight ≤ x.host.endpoint.pendingCount)
  /-- Whatever others do between the steps of a start, its beginning draws a number only, -/
  begins : ∀ o, ∃ n, (x.start o).host =
    { x.host with endpoint := { x.host.endpoint with nextId := n } }
  /-- a step touches nothing but its own entry and message, -/
  touches : ∀ (t : Nat) (s : Start) (gone : Bool), x.starts[t]? = some s →
    Touches s x (x.advance t gone)
  /-- and a call that looks how many wait is refused as one too many exactly if at least as many wait
  as may. -/
  looks : ∀ (s : Start) (gone : Bool), s ∈ x.starts → s.stage = .found → s.id? ≠ none →
    ((∃ current max, (x.host.endpoint.advance gone s).2 =
        .refused (.tooManyInFlight current max)) ↔
      c.maxInFlight ≤ x.host.endpoint.pendingCount)
  /-- One message has joined the queue for each start that was sent, and the others are those of
  acts. -/
  queue : x.queued.Perm (x.starts.filterMap Start.sent? ++ queuedIn x.chronicle.events)
  /-- Every call has an id that no call had before, and one entry at most. -/
  rising : (Start.ids x.starts).Pairwise fun a b => a.val < b.val
  fresh : ⟨x.host.endpoint.nextId⟩ ∉ Start.ids x.starts
  once : x.host.endpoint.waiting.Nodup
  /-- A call that was sent has its entry as long as it has no result. -/
  sent : ∀ s ∈ x.starts, s.stage = .sent → ∀ id, s.id? = some id →
    ∃ q ∈ x.host.calls, q.call.id = some id ∧ s.wish? = some q.wish ∧
      (id ∈ x.host.endpoint.waiting ↔ q.call.delivered = none)
  /-- A call whose start is over, and which was not sent, has left nothing behind. Its caller has been
  told why, unless the peer has made up an answer to it. -/
  failed : ∀ s ∈ x.starts, s.stage.isOver = true → s.stage ≠ .sent → ∀ id, s.id? = some id →
    id ∉ asksIn x.queued ∧ id ∉ x.host.endpoint.waiting ∧
      ∃ q ∈ x.host.calls, q.call.id = some id ∧ s.wish? = some q.wish ∧
        ∃ r, q.call.delivered = some r ∧ (r = .error s.stage.verdict ∨
          (∀ err, s.stage ≠ .refused err) ∧ x.chronicle.Answered id)

/-- **Starts are whole or nothing however they overlap, and not counted.** Up to `n` calls more than
may come to wait where up to `n + 1` starts are between their look and their entry at once. -/
theorem openings (c : Config) (strides : List (Stride η)) :
    Openings c ((ofConfig c).run strides) ∧
    ∀ n, (∀ xs, xs <+: strides → ((ofConfig c : Crowd η).run xs).admitted ≤ n + 1) →
      ((ofConfig c).run strides).host.endpoint.pendingCount ≤ c.maxInFlight + n := by
  have hx := sound (η := η) c strides
  have hp := posted (η := η) c strides
  have ht := told (η := η) c strides
  have hconfig := config_run (η := η) c strides
  refine ⟨?_, fun n hn => Nat.le_trans (Nat.le_add_right _ _) (bounded c n strides hn)⟩
  generalize (ofConfig c).run strides = x at hx hp ht hconfig
  refine { alone := fun hn o => endpoint_alone hn o, whole := ?whole, full := ?full,
           begins := x.host_start, touches := fun t s gone hs => touches_advance hs gone,
           looks := ?looks, queue := hp.queue, rising := hx.rising, fresh := hx.next_not_drawn,
           once := hx.agrees.nodup_waiting, sent := ?sent, failed := ?failed }
  case whole => exact fun o w => o.whole hx.next_not_waiting _ w
  case full =>
    intro hopen o y hcall htarget
    have hiff := Opening.full_iff hopen hcall htarget
    rw [hconfig] at hiff
    rw [← hiff, Opening.error?_place]
    cases o.message x.host.endpoint with
    | error err => simp
    | ok m => simp
  case looks =>
    intro s gone _ hstage hcall
    rw [← hconfig]
    exact Endpoint.looks_full hstage hcall gone
  case sent =>
    intro s hs hstage id hid
    obtain ⟨q, hq, hqid, hwish⟩ := hx.exists_call hs (by rw [hstage]; rfl) hid
    exact ⟨q, hq, hqid, hwish, hx.agrees.mem_waiting_iff hq hqid⟩
  case failed =>
    intro s hs hover hsent id hid
    have hgone := hx.left s hs hover hsent id hid
    obtain ⟨q, hq, hqid, hwish⟩ := hx.exists_call hs (Stage.isKnown_of_isOver hover) hid
    refine ⟨fun hask => ?_, hgone, q, hq, hqid, hwish, ?_⟩
    · obtain ⟨s', hs', hstage, hid'⟩ := hp.mem_asks.mp hask
      obtain rfl := Start.eq_of_id hx.nodup hs hs' hid hid'
      exact hsent hstage
    · cases hd : q.call.delivered with
      | none => exact absurd ((hx.agrees.mem_waiting_iff hq hqid).mpr hd) hgone
      | some r => exact ⟨r, rfl, ht s hs hsent id hid q hq hqid r hd⟩

/-- Two calls are made at once where one may wait. -/
def hasty : List (Stride Service) :=
  [.start (.request ⟨7⟩ "wait" []), .start (.request ⟨7⟩ "wait" [])] ++
    (List.replicate 5 [.advance 0 false, .advance 1 false]).flatten

set_option maxRecDepth 10000 in
/-- Two calls find room at once, and as many come to wait as the bound then allows. -/
theorem openings_hasty :
    let c : Config := { side := .main, maxInFlight := 1 }
    let x : Crowd Service := (ofConfig c).run hasty
    x.host.endpoint.pendingCount = 2 ∧
      (∀ xs, xs <+: hasty → ((ofConfig c : Crowd Service).run xs).admitted ≤ 1 + 1) ∧
      Openings c x ∧ x.host.endpoint.pendingCount ≤ c.maxInFlight + 1 := by
  have htake : ∀ n ≤ hasty.length, ((ofConfig { side := .main, maxInFlight := 1 } :
      Crowd Service).run (hasty.take n)).admitted ≤ 1 + 1 := by decide +kernel
  have hroom : ∀ xs, xs <+: hasty → ((ofConfig { side := .main, maxInFlight := 1 } :
      Crowd Service).run xs).admitted ≤ 1 + 1 := by
    intro xs hxs
    rw [List.prefix_iff_eq_take.mp hxs]
    exact htake _ hxs.length_le
  have hopenings := openings { side := .main, maxInFlight := 1 } hasty
  exact ⟨rfl, hroom, hopenings.1, hopenings.2 1 hroom⟩

set_option maxRecDepth 10000 in
/-- More calls wait than may, and go on waiting. A further call is refused as one too many although
it does not find the number at which it should be. -/
theorem overfull :
    let x : Crowd Service := (ofConfig { side := .main, maxInFlight := 1 }).run hasty
    x.host.endpoint.pendingCount = 2 ∧ x.host.endpoint.isOpen = true ∧
      asksIn x.queued = [⟨1⟩, ⟨2⟩] ∧
      (Opening.place x.host.now x.host.endpoint (.request ⟨7⟩ "wait" [])).2.error? =
        some (.tooManyInFlight 2 1) :=
  ⟨rfl, rfl, rfl, rfl⟩

end Crowd

end PeerRpc
