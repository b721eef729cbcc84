import PeerRpc.Proofs.Crowd.Basic

/-!
# PeerRpc.Proofs.Crowd.Starts -- the starts of a crowd and the calls of its host

A start that has drawn an id is the only one with that id, and the ids of starts rise in the order in
which the starts were begun. The calls of a host are those starts that have become known: a call has
its entry from then on as long as it has no result. `Crowd.Sound` says so, and every stride keeps it
(`Crowd.Sound.stride`).

An entry can be made after the endpoint has closed, and then the start finds out and takes it away.
So the host of a crowd agrees with its endpoint (`Host.Agrees`), but is not `Host.Sound` at every
moment.
-/

namespace PeerRpc

variable {η : Type}

/-! ## Small facts about stages and starts -/

namespace Stage

@[simp] theorem reveals_self (stage : Stage) : stage.reveals stage = false := by
  cases stage <;> rfl

theorem isKnown_of_isOver {stage : Stage} (h : stage.isOver = true) : stage.isKnown = true := by
  cases stage <;> first | rfl | cases h

theorem isKnown_of_reveals {stage stage' : Stage} (h : stage.reveals stage' = true) :
    stage.isKnown = false ∧ stage'.isKnown = true := by
  cases stage <;> cases stage' <;> first | exact ⟨rfl, rfl⟩ | cases h

end Stage

namespace Start

/-- What is asked with the call that is started. -/
def wish? (s : Start) : Option (Option RequestId × ProxyId × String × List Value) :=
  match s.message with
  | .request id proxy method args => some (some id, proxy, method, args)
  | _ => none

theorem wish_of_asked {s : Start} (c : Config) : (s.asked? c).map Asked.wish = s.wish? := by
  unfold asked? wish?
  cases s.message <;> rfl

theorem id?_of_wish {s : Start} : s.wish?.bind Prod.fst = s.id? := by
  unfold wish? id?
  cases s.message <;> rfl

theorem wish?_eq_none {s : Start} (h : s.id? = none) : s.wish? = none := by
  obtain ⟨message, since, stage⟩ := s
  cases message <;> first | rfl | cases h

theorem exists_wish {s : Start} {id : RequestId} (h : s.id? = some id) :
    ∃ w, s.wish? = some w ∧ w.1 = some id := by
  obtain ⟨message, since, stage⟩ := s
  cases message with
  | request id' proxy method args => exact ⟨_, rfl, h⟩
  | _ => cases h

/-- The call that is started has no result yet. -/
theorem exists_asked {s : Start} (c : Config) {id : RequestId} (h : s.id? = some id) :
    ∃ q, s.asked? c = some q ∧ q.call.id = some id ∧ q.call.delivered = none := by
  obtain ⟨message, since, stage⟩ := s
  cases message with
  | request id' proxy method args => exact ⟨_, rfl, h, rfl⟩
  | _ => cases h

theorem delivered_of_asked {s : Start} {c : Config} {q : Asked} (h : s.asked? c = some q) :
    q.call.delivered = none := by
  obtain ⟨message, since, stage⟩ := s
  cases message with
  | request id proxy method args =>
      obtain rfl := Option.some.inj h
      rfl
  | _ => cases h

theorem asked?_eq_none {s : Start} (c : Config) (h : s.id? = none) : s.asked? c = none := by
  obtain ⟨message, since, stage⟩ := s
  cases message <;> first | rfl | cases h

/-- The ids that starts have drawn, in the order in which the starts were begun. -/
def ids (starts : List Start) : List RequestId := starts.filterMap id?

@[simp] theorem ids_append (starts starts' : List Start) :
    ids (starts ++ starts') = ids starts ++ ids starts' := List.filterMap_append

theorem mem_ids {starts : List Start} {s : Start} {id : RequestId} (hs : s ∈ starts)
    (hid : s.id? = some id) : id ∈ ids starts := List.mem_filterMap.mpr ⟨s, hs, hid⟩

/-- A start keeps its id. -/
theorem ids_set {starts : List Start} {t : Nat} {s : Start} (hs : starts[t]? = some s)
    (stage : Stage) : ids (starts.set t { s with stage := stage }) = ids starts := by
  induction starts generalizing t with
  | nil => cases hs
  | cons s' starts ih =>
      cases t with
      | zero =>
          obtain rfl := Option.some.inj hs
          rfl
      | succ t =>
          rw [List.set_cons_succ, ids, ids, List.filterMap_cons, List.filterMap_cons]
          rw [show List.filterMap id? _ = List.filterMap id? _ from ih hs]

/-- The starts after a step of one of them. -/
theorem mem_set {starts : List Start} {t : Nat} {s s' : Start} (hs : starts[t]? = some s)
    (stage : Stage) : s' ∈ starts.set t { s with stage := stage } ↔
      s' = { s with stage := stage } ∨ ∃ i, i ≠ t ∧ starts[i]? = some s' := by
  obtain ⟨ht, -⟩ := List.getElem?_eq_some_iff.mp hs
  rw [List.mem_iff_getElem?]
  constructor
  · rintro ⟨i, hi⟩
    rw [List.getElem?_set] at hi
    split at hi
    · exact Or.inl (Option.some.inj hi).symm
    · next hne => exact Or.inr ⟨i, fun heq => hne heq.symm, hi⟩
  · rintro (rfl | ⟨i, hne, hi⟩)
    · exact ⟨t, by rw [List.getElem?_set_self ht]⟩
    · exact ⟨i, by rw [List.getElem?_set_ne (Ne.symm hne), hi]⟩

/-- A start is known by its id. -/
theorem index_eq {starts : List Start} (h : (ids starts).Nodup) {t t' : Nat} {s s' : Start}
    {id : RequestId} (hs : starts[t]? = some s) (hs' : starts[t']? = some s')
    (hid : s.id? = some id) (hid' : s'.id? = some id) : t = t' := by
  have hpair := List.pairwise_iff_getElem.mp (List.pairwise_filterMap.mp h)
  obtain ⟨ht, rfl⟩ := List.getElem?_eq_some_iff.mp hs
  obtain ⟨ht', rfl⟩ := List.getElem?_eq_some_iff.mp hs'
  rcases Nat.lt_trichotomy t t' with hlt | heq | hlt
  · exact absurd rfl (hpair t t' ht ht' hlt id hid id hid')
  · exact heq
  · exact absurd rfl (hpair t' t ht' ht hlt id hid' id hid)

theorem eq_of_id {starts : List Start} (h : (ids starts).Nodup) {s s' : Start} {id : RequestId}
    (hs : s ∈ starts) (hs' : s' ∈ starts) (hid : s.id? = some id) (hid' : s'.id? = some id) :
    s = s' := by
  obtain ⟨i, hi⟩ := List.mem_iff_getElem?.mp hs
  obtain ⟨j, hj⟩ := List.mem_iff_getElem?.mp hs'
  obtain rfl := index_eq h hi hj hid hid'
  exact Option.some.inj (hi.symm.trans hj)

end Start

/-- An act that starts nothing makes no call. -/
theorem Act.asks_of_opens {a : Act η} (h : a.opens = false) : a.asks = false := by
  cases a with
  | op o => cases o <;> first | rfl | cases h
  | _ => rfl

/-! ## What a step of a start does at the host -/

namespace Endpoint

variable {e : Endpoint η} {gone : Bool} {s : Start} {stage : Stage}

theorem Looks.reveals (h : Looks e gone s stage) : s.stage.reveals stage = false := by
  cases h with
  | finds stage | admits stage | clearsNotice stage | clears stage | stops stage | misses stage =>
      rw [stage]
      rfl

/-- A call is refused before it is known. -/
theorem TurnsDown.reveals {err : CallError} (h : TurnsDown e gone s err) :
    s.stage.reveals (.refused err) = true ∨ s.id? = none := by
  cases h with
  | closed stage | full stage | codec stage =>
      rw [stage]
      exact Or.inl rfl
  | lost _ notice => exact Or.inr notice

end Endpoint

/-- Who is told that a notification is refused learns it without an event. -/
theorem Endpoint.turnDown_of_notice (e : Endpoint η) {s : Start} (hid : s.id? = none)
    (err : CallError) : e.turnDown s err = ((e, []), .refused err) := by
  rw [turnDown, hid]
  rfl

namespace Host

variable {h : Host η} {gone : Bool} {s : Start} {r : Endpoint.Step η × Stage}

/-- The call that a step makes known. -/
def revealed? (h : Host η) (s : Start) (stage : Stage) : Option Asked :=
  if s.stage.reveals stage then s.asked? h.endpoint.config else none

theorem advance_eq (hr : h.endpoint.advance gone s = r) :
    h.advance gone s =
      ((({ h with calls := h.calls ++ (h.revealed? s r.2).toList } : Host η).follow r.1).1, r.2) := by
  subst hr
  rfl

/-- A step that makes no call known. -/
theorem advance_eq_follow (hr : h.endpoint.advance gone s = r) (hnone : h.revealed? s r.2 = none) :
    h.advance gone s = ((h.follow r.1).1, r.2) := by
  rw [advance_eq hr, hnone, Option.toList_none, List.append_nil]

/-- A step that does nothing at the endpoint and makes no call known does nothing. -/
theorem advance_eq_self {stage : Stage}
    (hr : h.endpoint.advance gone s = ((h.endpoint, []), stage))
    (hnone : h.revealed? s stage = none) : h.advance gone s = (h, stage) := by
  rw [advance_eq_follow hr hnone, follow_nil]

/-- Calls that are remembered after a step of a start. -/
theorem wishes_advance (hr : h.endpoint.advance gone s = r) :
    (h.advance gone s).1.calls.map Asked.wish = h.calls.map Asked.wish ++
      (if s.stage.reveals r.2 then s.wish? else none).toList := by
  rw [advance_eq hr]
  show List.map Asked.wish (List.map (Asked.hear _) _) = _
  rw [map_wish_hear, List.map_append, revealed?, ← Start.wish_of_asked h.endpoint.config]
  refine congrArg (_ ++ ·) ?_
  cases s.stage.reveals r.2 <;> cases s.asked? h.endpoint.config <;> rfl

/-- Who makes no call and forgets none remembers what was remembered. -/
theorem wishes_of_settles {x : Host η × List (Event η)} (hx : h.Settles x)
    (hold : h.calls.map Asked.wish <+: x.1.calls.map Asked.wish) :
    x.1.calls.map Asked.wish = h.calls.map Asked.wish := by
  have hlength := congrArg List.length hx.accounts
  simp only [accounts, List.length_map] at hlength
  exact (hold.eq_of_length (by rw [List.length_map, List.length_map, hlength])).symm

/-- Another call fits in. -/
theorem Agrees.join {h' : Host η} (hh : h.Agrees) {t : Account} (id : RequestId)
    (hid : t.id = some id) (hfresh : id ∉ h.accounts.filterMap Account.id)
    (hissued : id.val.toNat ≤ h.endpoint.issued)
    (hnext : h'.endpoint.nextId = h.endpoint.nextId)
    (hacc : h'.accounts = h.accounts ++ [t])
    (hpending : h'.endpoint.pending = h.endpoint.pending ++ t.slot?.toList) : h'.Agrees := by
  have hids : h'.accounts.filterMap Account.id = h.accounts.filterMap Account.id ++ [id] := by
    rw [hacc, List.filterMap_append]
    simp [hid]
  have hsame : h'.endpoint.issued = h.endpoint.issued := by
    rw [Endpoint.issued, Endpoint.issued, hnext]
  refine { ids := ?ids, issued := ?issued, pending := ?pending, failed := ?failed }
  case ids =>
    rw [hids, List.nodup_append]
    refine ⟨hh.ids, List.nodup_singleton _, ?_⟩
    rintro id' hid' _ hlast rfl
    exact hfresh (List.mem_singleton.mp hlast ▸ hid')
  case issued =>
    rw [hids, hsame]
    intro id' hid'
    rcases List.mem_append.mp hid' with hid' | hid'
    · exact hh.issued id' hid'
    · exact List.mem_singleton.mp hid' ▸ hissued
  case pending =>
    rw [hpending, hacc, List.filterMap_append, hh.pending]
    cases hslot : t.slot? <;> simp [hslot]
  case failed =>
    rw [hacc]
    intro t' ht' hnone
    rcases List.mem_append.mp ht' with ht' | ht'
    · exact hh.failed t' ht' hnone
    · rw [List.mem_singleton.mp ht', hid] at hnone
      cases hnone

/-- Nobody hears of a result under an id that is not in use. -/
theorem map_hear_of_fresh (h : Host η) {events : List (Event η)}
    (hfresh : ∀ id ∈ h.accounts.filterMap Account.id, resultFor? events id = none) :
    h.accounts.map (Account.hear events) = h.accounts := by
  refine (List.map_congr_left fun t ht => ?_).trans (List.map_id' _)
  obtain ⟨proxy, tid, result⟩ := t
  have hnone : tid.bind (resultFor? events) = none := by
    cases tid with
    | none => rfl
    | some id => exact hfresh id (List.mem_filterMap.mpr ⟨_, ht, rfl⟩)
  simp only [Account.hear, hnone, Option.or_none]

/-- The accounts after a step that makes a call known. -/
theorem accounts_advance_of_reveals (hr : h.endpoint.advance gone s = r)
    (hreveals : s.stage.reveals r.2 = true) {q : Asked}
    (hq : s.asked? h.endpoint.config = some q)
    (hfresh : ∀ id ∈ h.accounts.filterMap Account.id, resultFor? r.1.2 id = none) :
    (h.advance gone s).1.accounts = h.accounts ++ [q.account.hear r.1.2] := by
  rw [advance_eq hr, accounts_follow, revealed?, if_pos hreveals, hq]
  show List.map _ ((h.calls ++ [q]).map Asked.account) = _
  rw [List.map_append, List.map_append]
  exact congrArg (· ++ _) (h.map_hear_of_fresh hfresh)

theorem revealed?_of_looks {stage : Stage} (hl : Endpoint.Looks h.endpoint gone s stage) :
    h.revealed? s stage = none := by
  rw [revealed?, hl.reveals]
  rfl

theorem revealed?_of_notice (hid : s.id? = none) (stage : Stage) :
    h.revealed? s stage = none := by
  rw [revealed?, s.asked?_eq_none _ hid, ite_self]

/-- **A step of a start keeps calls and endpoint in agreement**, as long as nobody else has the id of
a call that is not known. -/
theorem Agrees.advance (hh : h.Agrees) (gone : Bool)
    (hfresh : s.stage.isKnown = false → ∀ id, s.id? = some id →
      id ∉ h.accounts.filterMap Account.id)
    (hissued : ∀ id, s.id? = some id → id.val.toNat ≤ h.endpoint.issued) :
    (h.advance gone s).1.Agrees := by
  have hcases := h.endpoint.advance_cases gone s
  generalize hr : h.endpoint.advance gone s = r at hcases
  cases hcases with
  | @rests stage same ended =>
      rw [advance_eq_self hr (by rw [revealed?, same, Stage.reveals_self]; rfl)]
      exact hh
  | looks hlooks =>
      rw [advance_eq_self hr (revealed?_of_looks hlooks)]
      exact hh
  | @refused err why =>
      rcases why.reveals with hreveals | hnotice
      · cases hid : s.id? with
        | none =>
            rw [advance_eq_self (hr.trans (h.endpoint.turnDown_of_notice hid err))
              (revealed?_of_notice hid _)]
            exact hh
        | some id =>
            obtain ⟨q, hq, hqid, hqnone⟩ := s.exists_asked h.endpoint.config hid
            have hnew := hfresh (Stage.isKnown_of_reveals hreveals).1 id hid
            have hevents : (h.endpoint.turnDown s err).1.2 = [.settled id (.error err)] := by
              rw [Endpoint.turnDown, hid]
              rfl
            have hacc := accounts_advance_of_reveals hr hreveals hq fun id' hid' => by
              have hne : id' ≠ id := fun heq => hnew (heq ▸ hid')
              rw [hevents]
              simp [resultFor?, Event.settles?, Ne.symm hne]
            refine hh.join id ?_ hnew (hissued id hid) ?_ hacc ?_
            · exact hqid
            · rw [advance_eq hr]
              rfl
            · have hslot : (q.account.hear (h.endpoint.turnDown s err).1.2).slot? = none := by
                rw [hevents, Account.slot?_hear]
                simp [Asked.account, Account.slot?, hqid, hqnone, resultFor?, Event.settles?]
              rw [hslot, advance_eq hr]
              exact (List.append_nil _).symm
      · rw [advance_eq_self (hr.trans (h.endpoint.turnDown_of_notice hnotice err))
          (revealed?_of_notice hnotice _)]
        exact hh
  | @enters id proxy method args admitted message =>
      have hid : s.id? = some id := by rw [Start.id?, message]; rfl
      have hreveals : s.stage.reveals .entered = true := by rw [admitted]; rfl
      have hq : s.asked? h.endpoint.config = some ⟨proxy, method, args,
          { id := some id, limit := h.endpoint.config.requestTimeout, started := s.since }⟩ := by
        rw [Start.asked?, message]
      have hacc := accounts_advance_of_reveals hr hreveals hq fun _ _ => rfl
      refine hh.join id rfl ?_ (hissued id hid) ?_ hacc ?_
      · exact hfresh (by rw [admitted]; rfl) id hid
      · rw [advance_eq hr]
        rfl
      · rw [advance_eq hr]
        rfl
  | sends cleared =>
      have hnone : h.revealed? s .sent = none := by rw [revealed?, cleared]; rfl
      rw [advance_eq_follow hr hnone]
      exact hh.of_settles (.follow (.of_silent rfl rfl rfl rfl))
  | withdraws stopped call =>
      have hnone : h.revealed? s .withdrawn = none := by rw [revealed?, stopped]; rfl
      rw [advance_eq_follow hr hnone]
      exact hh.of_settles (.follow (Endpoint.regular_settle _ _ _).toBalanced)

end Host

/-! ## Entries -/

namespace Endpoint

variable {e : Endpoint η} {gone : Bool} {s : Start} {r : Endpoint.Step η × Stage}

@[simp] theorem waiting_enter (e : Endpoint η) (id : RequestId) (proxy : ProxyId) :
    (e.enter id proxy).waiting = e.waiting ++ [id] := by
  simp [waiting, enter]

/-- A call is known from the step on that makes it known. -/
theorem isKnown_of_advance (hr : e.Advance gone s r) (hcall : s.id? ≠ none) :
    r.2.isKnown = (s.stage.isKnown || s.stage.reveals r.2) := by
  cases hr with
  | rests same => rw [same, Stage.reveals_self, Bool.or_false]
  | looks looks =>
      cases looks with
      | clearsNotice _ notice => exact absurd notice hcall
      | finds stage | admits stage | clears stage | stops stage | misses stage =>
          rw [stage]
          rfl
  | refused why =>
      cases why with
      | lost _ notice => exact absurd notice hcall
      | closed stage | full stage | codec stage =>
          rw [stage]
          rfl
  | enters stage | sends stage | withdraws stage =>
      rw [stage]
      rfl

/-- A step of a start is about entries and messages only. -/
theorem rest_of_advance (hr : e.Advance gone s r) :
    r.1.1 = { e with pending := r.1.1.pending, outbound := r.1.1.outbound } := by
  cases hr with
  | withdraws =>
      rw [settle_fst]
  | _ => rfl

/-- Nobody but the call that gets its entry begins to wait. -/
theorem waits_of_advance (hr : e.Advance gone s r) {id : RequestId} (hw : id ∈ r.1.1.waiting) :
    id ∈ e.waiting ∨ s.id? = some id ∧ r.2 = .entered := by
  cases hr with
  | rests | looks | refused | sends => exact Or.inl hw
  | @enters id' proxy method args admitted message =>
      rw [waiting_enter] at hw
      rcases List.mem_append.mp hw with hw | hw
      · exact Or.inl hw
      · rw [List.mem_singleton.mp hw]
        exact Or.inr ⟨by rw [Start.id?, message]; rfl, rfl⟩
  | withdraws stopped call =>
      refine Or.inl ?_
      rw [settle_fst] at hw
      obtain ⟨p, hp, rfl⟩ := List.mem_map.mp hw
      exact List.mem_map_of_mem (List.mem_of_mem_filter hp)

/-- A call that is over without having been sent does not wait. -/
theorem not_waits_of_advance (hr : e.Advance gone s r) {id : RequestId} (hid : s.id? = some id)
    (hnew : s.stage.isKnown = false → id ∉ e.waiting)
    (hold : s.stage.isOver = true → s.stage ≠ .sent → id ∉ e.waiting)
    (hover : r.2.isOver = true) (hsent : r.2 ≠ .sent) : id ∉ r.1.1.waiting := by
  cases hr with
  | rests same _ => exact hold (same ▸ hover) (same ▸ hsent)
  | looks looks => cases looks <;> cases hover
  | refused why =>
      refine hnew ?_
      rcases why.reveals with hreveals | hnone
      · exact (Stage.isKnown_of_reveals hreveals).1
      · rw [hid] at hnone
        cases hnone
  | enters => cases hover
  | sends => exact absurd rfl hsent
  | withdraws stopped call =>
      obtain rfl := Option.some.inj (hid.symm.trans call)
      rw [settle_fst]
      simp [waiting]

end Endpoint

/-! ## Sound crowds -/

namespace Crowd

theorem opens_of_allows {x : Crowd η} {a : Act η} (h : x.allows a = true) : a.opens = false := by
  rw [allows, Bool.and_eq_true, Bool.not_eq_true'] at h
  exact h.1

/-- The call that an act names is not being started any more. -/
theorem isOver_of_allows {x : Crowd η} {a : Act η} (h : x.allows a = true) {k : Nat}
    (hk : a.names? = some k) {q : Asked} (hq : x.host.calls[k]? = some q) {s : Start}
    (hs : s ∈ x.starts) {id : RequestId} (hid : q.call.id = some id) (hsid : s.id? = some id) :
    s.stage.isOver = true := by
  rw [allows, Bool.and_eq_true, hk, Option.bind_some, hq, Option.bind_some, hid] at h
  have hall := List.all_eq_true.mp h.2 s hs
  simpa [Start.isUnderway, hsid] using hall

/-- How the starts of a crowd and its host fit together. -/
structure Sound (x : Crowd η) : Prop where
  agrees : x.host.Agrees
  /-- Ids rise in the order in which the starts were begun. -/
  rising : (Start.ids x.starts).Pairwise fun a b => a.val < b.val
  drawn : ∀ id ∈ Start.ids x.starts, id.val ≠ 0 ∧ id.val.toNat ≤ x.host.endpoint.issued
  /-- The calls of the host are those of the starts that are known. -/
  calls : ∀ w, w ∈ x.host.calls.map Asked.wish ↔
    ∃ s ∈ x.starts, s.stage.isKnown = true ∧ s.wish? = some w
  /-- A start that was over before its message joined the queue has left no entry. -/
  left : ∀ s ∈ x.starts, s.stage.isOver = true → s.stage ≠ .sent →
    ∀ id, s.id? = some id → id ∉ x.host.endpoint.waiting

namespace Sound

variable {x : Crowd η}

theorem nodup (hx : x.Sound) : (Start.ids x.starts).Nodup :=
  hx.rising.imp (by rintro a _ hlt rfl; exact UInt64.lt_irrefl _ hlt)

/-- The start of a call. -/
theorem exists_start (hx : x.Sound) {q : Asked} (hq : q ∈ x.host.calls) :
    ∃ s ∈ x.starts, s.stage.isKnown = true ∧ s.id? = q.call.id ∧ s.wish? = some q.wish := by
  obtain ⟨s, hs, hknown, hw⟩ := (hx.calls q.wish).mp (List.mem_map_of_mem hq)
  refine ⟨s, hs, hknown, ?_, hw⟩
  rw [← Start.id?_of_wish, hw]
  rfl

/-- The call of a start that is known. -/
theorem exists_call (hx : x.Sound) {s : Start} (hs : s ∈ x.starts) (hknown : s.stage.isKnown = true)
    {id : RequestId} (hid : s.id? = some id) :
    ∃ q ∈ x.host.calls, q.call.id = some id ∧ s.wish? = some q.wish := by
  obtain ⟨w, hw, hwid⟩ := Start.exists_wish hid
  obtain ⟨q, hq, rfl⟩ := List.mem_map.mp ((hx.calls w).mpr ⟨s, hs, hknown, hw⟩)
  exact ⟨q, hq, hwid, hw⟩

/-- Nobody else has the id of a call that is not known yet. -/
theorem fresh (hx : x.Sound) {s : Start} (hs : s ∈ x.starts) (hknown : s.stage.isKnown = false)
    {id : RequestId} (hid : s.id? = some id) : id ∉ x.host.accounts.filterMap Account.id := by
  intro hmem
  obtain ⟨t, ht, htid⟩ := List.mem_filterMap.mp hmem
  obtain ⟨q, hq, rfl⟩ := List.mem_map.mp ht
  obtain ⟨s', hs', hknown', hid', -⟩ := hx.exists_start hq
  obtain rfl := Start.eq_of_id hx.nodup hs hs' hid (hid'.trans htid)
  rw [hknown'] at hknown
  cases hknown

/-- A call that waits has been drawn, and its start is known. -/
theorem exists_start_of_waiting (hx : x.Sound) {id : RequestId}
    (hw : id ∈ x.host.endpoint.waiting) :
    ∃ s ∈ x.starts, s.stage.isKnown = true ∧ s.id? = some id := by
  obtain ⟨k, q, hq, hid, -⟩ := hx.agrees.exists_of_waiting hw
  obtain ⟨s, hs, hknown, hsid, -⟩ := hx.exists_start (List.mem_of_getElem? hq)
  exact ⟨s, hs, hknown, hsid.trans hid⟩

theorem not_waiting (hx : x.Sound) {s : Start} (hs : s ∈ x.starts)
    (hknown : s.stage.isKnown = false) {id : RequestId} (hid : s.id? = some id) :
    id ∉ x.host.endpoint.waiting := by
  intro hw
  obtain ⟨k, q, hq, hqid, -⟩ := hx.agrees.exists_of_waiting hw
  exact hx.fresh hs hknown hid
    (List.mem_filterMap.mpr ⟨q.account, List.mem_map_of_mem (List.mem_of_getElem? hq), hqid⟩)

/-- Nobody has the next id. -/
theorem next_not_drawn (hx : x.Sound) : ⟨x.host.endpoint.nextId⟩ ∉ Start.ids x.starts := by
  intro hmem
  obtain ⟨hne, hle⟩ := hx.drawn _ hmem
  have := Endpoint.toNat_nextId hne
  dsimp only at hle
  omega

theorem next_not_waiting (hx : x.Sound) :
    (⟨x.host.endpoint.nextId⟩ : RequestId) ∉ x.host.endpoint.waiting := by
  intro hw
  obtain ⟨s, hs, -, hid⟩ := hx.exists_start_of_waiting hw
  exact hx.next_not_drawn (Start.mem_ids hs hid)

/-! ### Strides -/

/-- Another start is begun. -/
theorem join (hx : x.Sound) {s : Start} (hs : s.stage = .begun) {h : Host η} (hh : h.Agrees)
    (hcalls : h.calls = x.host.calls) (hpending : h.endpoint.pending = x.host.endpoint.pending)
    (hissued : x.host.endpoint.issued ≤ h.endpoint.issued)
    (hid : ∀ id, s.id? = some id → x.host.endpoint.issued < id.val.toNat ∧
      id.val.toNat ≤ h.endpoint.issued) :
    Sound { chronicle := { x.chronicle with host := h }, starts := x.starts ++ [s] } := by
  have hnew : ∀ s' ∈ x.starts ++ [s], s'.stage ≠ .begun → s' ∈ x.starts := by
    intro s' hs' hne
    rcases List.mem_append.mp hs' with hs' | hs'
    · exact hs'
    · rw [List.mem_singleton.mp hs'] at hne
      exact absurd hs hne
  have hids : ∀ id ∈ Start.ids [s], s.id? = some id := by
    intro id hid'
    obtain ⟨s', hs', heq⟩ := List.mem_filterMap.mp hid'
    rwa [List.mem_singleton.mp hs'] at heq
  refine { agrees := hh, rising := ?rising, drawn := ?drawn, calls := ?calls, left := ?left }
  case rising =>
    dsimp only
    rw [Start.ids_append]
    refine List.pairwise_append.mpr ⟨hx.rising, ?_, fun id hid₁ id' hid' => ?_⟩
    · unfold Start.ids
      cases h : s.id? <;> simp [h]
    · rw [UInt64.lt_iff_toNat_lt]
      exact Nat.lt_of_le_of_lt (hx.drawn id hid₁).2 (hid id' (hids id' hid')).1
  case drawn =>
    dsimp only
    rw [Start.ids_append]
    intro id hid'
    rcases List.mem_append.mp hid' with hid' | hid'
    · exact ⟨(hx.drawn id hid').1, Nat.le_trans (hx.drawn id hid').2 hissued⟩
    · obtain ⟨hlt, hle⟩ := hid id (hids id hid')
      refine ⟨fun hzero => ?_, hle⟩
      rw [hzero] at hlt
      exact absurd hlt (Nat.not_lt_zero _)
  case calls =>
    intro w
    show w ∈ h.calls.map Asked.wish ↔ _
    rw [hcalls, hx.calls w]
    constructor
    · rintro ⟨s', hs', hknown⟩
      exact ⟨s', List.mem_append_left _ hs', hknown⟩
    · rintro ⟨s', hs', hknown, hw⟩
      refine ⟨s', hnew s' hs' fun heq => ?_, hknown, hw⟩
      rw [heq] at hknown
      cases hknown
  case left =>
    intro s' hs' hover hsent id hid' hw
    have hw' : id ∈ h.endpoint.waiting := hw
    unfold Endpoint.waiting at hw'
    rw [hpending] at hw'
    refine hx.left s' (hnew s' hs' fun heq => ?_) hover hsent id hid' hw'
    rw [heq] at hover
    cases hover

theorem start (hx : x.Sound) (o : Opening) : (x.start o).Sound := by
  have hbegins := x.begins_start o
  generalize x.start o = y at hbegins
  cases hbegins with
  | fails => exact hx
  | notice proxy args target isCall => exact hx.join rfl hx.agrees rfl rfl (Nat.le_refl _) nofun
  | call proxy args target isCall next =>
      have hissued : ({ x.host.endpoint with nextId := x.host.endpoint.nextId + 1 } :
          Endpoint η).issued = x.host.endpoint.issued + 1 := Endpoint.issued_next _ next
      have hle : x.host.endpoint.issued ≤ ({ x.host.endpoint with
          nextId := x.host.endpoint.nextId + 1 } : Endpoint η).issued := by
        rw [hissued]
        exact Nat.le_succ _
      refine hx.join rfl { hx.agrees with
        issued := fun id hid => Nat.le_trans (hx.agrees.issued id hid) hle } rfl rfl hle ?_
      intro id hid
      obtain rfl := Option.some.inj hid
      have := Endpoint.toNat_nextId next
      dsimp only at hissued ⊢
      rw [hissued]
      omega

theorem act [Handler η] (hx : x.Sound) {a : Act η} (ha : a.opens = false) :
    Sound { x with chronicle := x.chronicle.act a } := by
  have hasks := a.asks_of_opens ha
  have hsettles := x.host.settles_step hasks
  refine { agrees := hx.agrees.of_settles hsettles, rising := hx.rising, drawn := ?drawn,
           calls := ?calls, left := ?left }
  case drawn =>
    exact fun id hid => ⟨(hx.drawn id hid).1,
      Nat.le_trans (hx.drawn id hid).2 (x.host.issued_step a)⟩
  case calls =>
    intro w
    rw [← hx.calls w]
    show w ∈ (x.host.step a).1.calls.map Asked.wish ↔ _
    rw [x.host.wishes_of_settles hsettles (x.host.wishes_step a)]
  case left =>
    intro s hs hover hsent id hid
    exact Host.not_mem_waiting_step (hx.drawn id (Start.mem_ids hs hid)).2
      (hx.left s hs hover hsent id hid) a

/-- A start takes a step. -/
theorem advance (hx : x.Sound) (t : Nat) (gone : Bool) : (x.advance t gone).Sound := by
  cases hs : x.starts[t]? with
  | none =>
      rw [advance_of_none hs]
      exact hx
  | some s =>
      have hmem := List.mem_of_getElem? hs
      have hr := x.host.endpoint.advance_cases gone s
      have hids := Start.ids_set hs (x.host.endpoint.advance gone s).2
      rw [advance_of_some hs]
      refine { agrees := ?agrees, rising := ?rising, drawn := ?drawn, calls := ?calls,
               left := ?left }
      case agrees =>
        exact hx.agrees.advance gone (fun hknown id hid => hx.fresh hmem hknown hid)
          fun id hid => (hx.drawn id (Start.mem_ids hmem hid)).2
      case rising =>
        dsimp only
        rw [hids]
        exact hx.rising
      case drawn =>
        dsimp only
        rw [hids]
        intro id hid
        have hissued : (x.host.endpoint.advance gone s).1.1.issued = x.host.endpoint.issued := by
          rw [Endpoint.rest_of_advance hr]
          rfl
        exact ⟨(hx.drawn id hid).1, hissued ▸ (hx.drawn id hid).2⟩
      case calls =>
        intro w
        show w ∈ (x.host.advance gone s).1.calls.map Asked.wish ↔ _
        rw [Host.wishes_advance rfl, List.mem_append, hx.calls w]
        have hknown (hw : s.wish? = some w) := Endpoint.isKnown_of_advance hr fun hnone => by
          rw [Start.wish?_eq_none hnone] at hw
          cases hw
        constructor
        · rintro (⟨s', hs', hk, hw⟩ | hnew)
          · obtain ⟨i, hi⟩ := List.mem_iff_getElem?.mp hs'
            by_cases hit : i = t
            · subst hit
              obtain rfl := Option.some.inj (hi.symm.trans hs)
              refine ⟨_, (Start.mem_set hs _).mpr (Or.inl rfl), ?_, hw⟩
              show Stage.isKnown _ = true
              rw [hknown hw, hk, Bool.true_or]
            · exact ⟨s', (Start.mem_set hs _).mpr (Or.inr ⟨i, hit, hi⟩), hk, hw⟩
          · obtain ⟨hreveals, hw⟩ := Option.ite_none_right_eq_some.mp (Option.mem_toList.mp hnew)
            refine ⟨_, (Start.mem_set hs _).mpr (Or.inl rfl), ?_, hw⟩
            exact (Stage.isKnown_of_reveals hreveals).2
        · rintro ⟨s', hs', hk, hw⟩
          rcases (Start.mem_set hs _).mp hs' with rfl | ⟨i, -, hi⟩
          · have hk' : (x.host.endpoint.advance gone s).2.isKnown = true := hk
            rw [hknown hw, Bool.or_eq_true] at hk'
            rcases hk' with hold | hreveals
            · exact Or.inl ⟨s, hmem, hold, hw⟩
            · exact Or.inr (Option.mem_toList.mpr (Option.ite_none_right_eq_some.mpr ⟨hreveals, hw⟩))
          · exact Or.inl ⟨s', List.mem_of_getElem? hi, hk, hw⟩
      case left =>
        intro s' hs' hover hsent id hid
        show id ∉ (x.host.endpoint.advance gone s).1.1.waiting
        rcases (Start.mem_set hs _).mp hs' with rfl | ⟨i, hit, hi⟩
        · exact Endpoint.not_waits_of_advance hr hid (fun hknown => hx.not_waiting hmem hknown hid)
            (fun hold hne => hx.left s hmem hold hne id hid) hover hsent
        · intro hw
          rcases Endpoint.waits_of_advance hr hw with hw | ⟨hsid, -⟩
          · exact hx.left s' (List.mem_of_getElem? hi) hover hsent id hid hw
          · exact hit (Start.index_eq hx.nodup hi hs hid hsid)

theorem stride [Handler η] (hx : x.Sound) (a : Stride η) : (x.stride a).Sound :=
  stride_cases hx (fun _ ha => hx.act (opens_of_allows ha)) hx.start hx.advance a

end Sound

theorem sound_ofConfig (c : Config) : (ofConfig c : Crowd η).Sound where
  agrees := (Host.sound_ofConfig c).toAgrees
  rising := List.Pairwise.nil
  drawn := fun _ hid => absurd hid List.not_mem_nil
  calls := fun w => by simp [ofConfig, host, Chronicle.ofConfig, Host.ofConfig]
  left := fun _ hs => absurd hs List.not_mem_nil

/-- **The calls of the host of a crowd are those of its starts**, whatever happens. -/
theorem sound [Handler η] (c : Config) (strides : List (Stride η)) :
    ((ofConfig c).run strides).Sound :=
  run_induction (sound_ofConfig c) (fun _ a hx => hx.stride a) strides

end Crowd

end PeerRpc
