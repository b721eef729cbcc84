import PeerRpc.Proofs.Crowd.Queue
import PeerRpc.Service

/-!
# PeerRpc.Proofs.Crowd.Discipline -- requests and cancels where starts overlap

A call draws its id with its beginning, and its request joins the queue with its last step. So ids
rise in the order in which calls were begun, and no two requests have the same id. Yet requests need
not join the queue in this order: a call that was begun later may overtake one that is still being
started (`Crowd.overtaken`). What joins the queue after some moment is the request of a call that was
being started then, or has a larger id than all that were drawn before (`Crowd.Grows.later`), and so
ids rise in the queue where no start is begun while a call is being started (`Crowd.Lone`).

Nobody holds a call before its start is over. So a cancel stands behind its request, however starts
overlap, and there is one at most (`Crowd.Recalls`).
-/

namespace PeerRpc

variable {η : Type}

theorem Start.isUnderway_eq_true {s : Start} {id : RequestId} :
    s.isUnderway id = true ↔ s.stage.isOver = false ∧ s.id? = some id := by
  simp [Start.isUnderway]

/-- An endpoint that is closed takes no call back. -/
theorem Host.isOpen_of_withdraws [Handler η] {h : Host η} {a : Act η} {o : Outbound}
    {id : RequestId} (hq : h.queues? a = some o) (ho : o.message.withdraws? = some id) :
    h.endpoint.isOpen = true := by
  have hback {k : Nat} {a' : Act η} (hq : Host.queues?.takesBack? h k a' = some o) :
      h.endpoint.isOpen = true := by
    obtain ⟨q, -, hq⟩ := Option.bind_eq_some_iff.mp hq
    obtain ⟨-, hq⟩ := Option.ite_none_right_eq_some.mp hq
    obtain ⟨id', -, hq⟩ := Option.bind_eq_some_iff.mp hq
    exact (Option.ite_none_right_eq_some.mp hq).1.2
  cases Host.posting hq with
  | cancel k q id' message call named waits cause op =>
      obtain ⟨op, rfl⟩ := op
      cases op with
      | cancel | drop | poll => exact hback hq
      | close => cases hq
      | _ => cases cause
  | outcome id' r out message =>
      subst message
      exact absurd ho (by simp)
  | _ => subst_vars; cases ho

/-- An act that starts nothing is not refused. -/
theorem Host.refused?_of_opens (h : Host η) {a : Act η} (ha : a.opens = false) :
    h.refused? a = none := by
  cases a with
  | op o => cases o <;> first | rfl | cases ha
  | _ => rfl

/-- An act that ends a call in the name of its caller names the call. -/
theorem Asked.names?_of_cause {h : Host η} {k : Nat} {q : Asked} {a : Act η} {z : Cause}
    (hz : q.cause? h k a = some z) (hw : z.isWithdrawal = true) : a.names? = some k := by
  cases Asked.endedBy hz with
  | cancelled | dropped | timedOut => rfl
  | _ => cases hw

namespace Crowd

variable {x : Crowd η}

/-! ## The way back -/

section

variable [Handler η]

/-- What an act finds: the crowd at which it was taken. -/
theorem exists_run_of_past {c : Config} {strides : List (Stride η)} {before after : List (Moment η)}
    {m : Moment η} (h : ((ofConfig c).run strides).chronicle.past = before ++ m :: after) :
    ∃ xs, xs <+: strides ∧
      ((ofConfig c).run xs).chronicle = { host := m.host, past := before } ∧
      ((ofConfig c : Crowd η).run xs).allows m.act = true := by
  induction strides using List.reverseRecOn generalizing after with
  | nil => simp [ofConfig, Chronicle.ofConfig] at h
  | append_singleton strides a ih =>
      have hprefix {xs : List (Stride η)} (hxs : xs <+: strides) : xs <+: strides ++ [a] :=
        hxs.trans (List.prefix_append _ _)
      have hback (after' : List (Moment η))
          (h' : ((ofConfig c).run strides).chronicle.past = before ++ m :: after') :
          ∃ xs, xs <+: strides ++ [a] ∧
            ((ofConfig c).run xs).chronicle = { host := m.host, past := before } ∧
            ((ofConfig c : Crowd η).run xs).allows m.act = true := by
        obtain ⟨xs, hxs, hx⟩ := ih h'
        exact ⟨xs, hprefix hxs, hx⟩
      rw [run_concat] at h
      cases a with
      | start o =>
          refine hback after ?_
          rw [← h]
          have hbegins := ((ofConfig c).run strides).begins_start o
          show _ = (((ofConfig c).run strides).start o).chronicle.past
          generalize ((ofConfig c).run strides).start o = y at hbegins
          cases hbegins <;> rfl
      | advance t gone =>
          refine hback after ?_
          rw [← h]
          show _ = (((ofConfig c).run strides).advance t gone).chronicle.past
          cases hs : ((ofConfig c).run strides).starts[t]? with
          | none => rw [advance_of_none hs]
          | some s => rw [advance_of_some hs]
      | act a =>
          simp only [stride] at h
          split at h
          · next hallows =>
              dsimp only at h
              rw [Chronicle.past_act] at h
              rcases List.eq_nil_or_concat after with rfl | ⟨after', m', rfl⟩
              · -- the moment is the last one
                obtain ⟨hpast, hm⟩ := List.append_inj' h rfl
                obtain rfl := List.singleton_inj.mp hm
                exact ⟨strides, List.prefix_append _ _, by rw [← hpast], hallows⟩
              · refine hback after' ?_
                rw [List.concat_eq_append, ← List.cons_append, ← List.append_assoc] at h
                exact (List.append_inj' h rfl).1
          · exact hback after h

end

/-! ## Cancels -/

/-- A call that waits and whose start is over has been sent. -/
theorem Sound.mem_asks_of_waiting [Handler η] (hx : x.Sound) (hp : x.Posted) {id : RequestId}
    (hw : id ∈ x.host.endpoint.waiting)
    (hover : ∀ s ∈ x.starts, s.id? = some id → s.stage.isOver = true) : id ∈ asksIn x.queued := by
  obtain ⟨s, hs, -, hid⟩ := hx.exists_start_of_waiting hw
  refine hp.mem_asks.mpr ⟨s, hs, ?_, hid⟩
  by_contra hsent
  exact hx.left s hs (hover s hs hid) hsent id hid hw

/-- What the cancels of a crowd know of its calls. -/
structure Recalls (x : Crowd η) : Prop where
  /-- A call that was taken back waits no longer. -/
  gone : ∀ id ∈ withdrawsIn x.queued, id ∉ x.host.endpoint.waiting
  once : (withdrawsIn x.queued).Nodup
  /-- However many messages one looks at, those that take calls back stand behind those that make
  them. -/
  behind : ∀ l, l <+: x.queued → ∀ id ∈ withdrawsIn l, id ∈ asksIn l

namespace Recalls

/-- A message that takes no call back joins the queue, or none. -/
theorem extend (hx : x.Recalls) {y : Crowd η} (hq : y.queued = x.queued ∨
      ∃ o, o.message.withdraws? = none ∧ y.queued = x.queued ++ [o])
    (hgone : ∀ id ∈ withdrawsIn x.queued, id ∉ y.host.endpoint.waiting) : y.Recalls := by
  rcases hq with hsame | ⟨o, hnone, hnew⟩
  · exact ⟨hsame ▸ hgone, hsame ▸ hx.once, hsame ▸ hx.behind⟩
  · have hwithdraws : withdrawsIn y.queued = withdrawsIn x.queued := by
      rw [hnew, withdrawsIn_concat, hnone]
      exact List.append_nil _
    refine ⟨hwithdraws ▸ hgone, hwithdraws ▸ hx.once, fun l hl id hid => ?_⟩
    rw [hnew] at hl
    rcases List.prefix_concat_iff.mp hl with rfl | hl
    · rw [← hnew, hwithdraws] at hid
      exact mem_asksIn_concat.mpr (Or.inl (hx.behind _ List.prefix_rfl id hid))
    · exact hx.behind l hl id hid

theorem start (hx : x.Recalls) (o : Opening) : (x.start o).Recalls := by
  refine hx.extend (Or.inl (x.queued_start o)) fun id hid => ?_
  have hbegins := x.begins_start o
  generalize x.start o = y at hbegins
  cases hbegins <;> exact hx.gone id hid

theorem advance [Handler η] (hs : x.Sound) (hp : x.Posted) (hx : x.Recalls) (t : Nat)
    (gone : Bool) : (x.advance t gone).Recalls := by
  cases hst : x.starts[t]? with
  | none =>
      rw [advance_of_none hst]
      exact hx
  | some s =>
      have hmem := List.mem_of_getElem? hst
      refine hx.extend ?_ fun id hid hw => ?_
      · rcases queued_advance_cases hst gone with hsame | ⟨-, -, hnew⟩
        · exact Or.inl hsame
        · exact Or.inr ⟨_, hp.asking s hmem, hnew⟩
      · rw [advance_of_some hst] at hw
        have hr := x.host.endpoint.advance_cases gone s
        rcases Endpoint.waits_of_advance hr hw with hw | ⟨hsid, hentered⟩
        · exact hx.gone id hid hw
        · -- a call that is taken back was sent before, and gets no entry any more
          obtain ⟨s', hs', hsent, hid'⟩ :=
            hp.mem_asks.mp (hx.behind _ List.prefix_rfl id hid)
          obtain rfl := Start.eq_of_id hs.nodup hmem hs' hsid hid'
          rw [Endpoint.advance_of_isOver _ _ (by rw [hsent]; rfl), hsent] at hentered
          cases hentered

variable [Handler η]

theorem act (hs : x.Sound) (hp : x.Posted) (hx : x.Recalls) {a : Act η}
    (ha : x.allows a = true) : Recalls { x with chronicle := x.chronicle.act a } := by
  have hnew := queued_act hs a
  have hgone : ∀ id ∈ withdrawsIn x.queued, id ∉ (x.host.step a).1.endpoint.waiting := by
    intro id hid
    obtain ⟨s, hmem, -, hsid⟩ := hp.mem_asks.mp (hx.behind _ List.prefix_rfl id hid)
    exact Host.not_mem_waiting_step (hs.drawn id (Start.mem_ids hmem hsid)).2 (hx.gone id hid) a
  cases hq : x.host.queues? a with
  | none =>
      rw [hq] at hnew
      exact hx.extend (Or.inl (hnew.trans (List.append_nil _))) hgone
  | some o =>
      rw [hq] at hnew
      cases hback : o.message.withdraws? with
      | none => exact hx.extend (Or.inr ⟨o, hback, hnew⟩) hgone
      | some id =>
          obtain ⟨hw, k, q, z, hk, hid, hz, hwithdrawal⟩ := Host.withdrawal_of_queues hq hback
          obtain ⟨-, rfl⟩ := Host.waited_of_withdraws hq hback
          have hnamed := Asked.names?_of_cause hz hwithdrawal
          have hask := hs.mem_asks_of_waiting hp hw fun s hs hsid =>
            isOver_of_allows ha hnamed hk hs hid hsid
          refine ⟨fun id' hid' => ?_, ?_, fun l hl id' hid' => ?_⟩
          · rw [hnew] at hid'
            rcases mem_withdrawsIn_concat.mp hid' with hid' | heq
            · exact hgone id' hid'
            · obtain rfl := Option.some.inj heq
              exact hs.agrees.left (.cancelled hq)
          · rw [hnew, Option.toList_some, withdrawsIn_concat]
            refine List.nodup_append.mpr ⟨hx.once, List.nodup_singleton _, ?_⟩
            rintro id' hid' _ hlast rfl
            obtain rfl := List.mem_singleton.mp hlast
            exact hx.gone id' hid' hw
          · rw [hnew] at hl
            rcases List.prefix_concat_iff.mp hl with rfl | hl
            · rw [mem_asksIn_concat]
              refine Or.inl ?_
              rcases mem_withdrawsIn_concat.mp hid' with hid' | heq
              · exact hx.behind _ List.prefix_rfl id' hid'
              · obtain rfl := Option.some.inj heq
                exact hask
            · exact hx.behind l hl id' hid'

theorem stride (hs : x.Sound) (hp : x.Posted) (hx : x.Recalls) (a : Stride η) :
    (x.stride a).Recalls :=
  stride_cases hx (fun _ ha => hx.act hs hp ha) hx.start (hx.advance hs hp) a

end Recalls

/-- **A cancel stands behind its request, and there is one at most**, however starts overlap. -/
theorem recalls [Handler η] (c : Config) (strides : List (Stride η)) :
    ((ofConfig c).run strides).Recalls := by
  refine (run_induction (P := fun x => x.Sound ∧ x.Posted ∧ x.Recalls)
    ⟨sound_ofConfig c, posted_ofConfig c, ?_⟩
    (fun _ a hx => ⟨hx.1.stride a, hx.2.1.stride hx.1 a, hx.2.2.stride hx.1 hx.2.1 a⟩) strides).2.2
  refine ⟨fun _ hid => absurd hid List.not_mem_nil, List.nodup_nil, fun l hl id hid => ?_⟩
  have hl' : l <+: [] := hl
  rw [List.prefix_nil.mp hl'] at hid
  exact absurd hid List.not_mem_nil

/-! ## What ends a call first -/

/-- Nothing that was done has ended a call without a result, or one that was not made. -/
def Unended (x : Crowd η) : Prop :=
  ∀ k, (∀ q, x.host.calls[k]? = some q → q.call.delivered = none) →
    x.chronicle.past.findSome? (·.cause? k) = none

namespace Unended

theorem start (hx : x.Unended) (o : Opening) : (x.start o).Unended := by
  have hbegins := x.begins_start o
  generalize x.start o = y at hbegins
  cases hbegins <;> exact hx

theorem advance (hx : x.Unended) (t : Nat) (gone : Bool) : (x.advance t gone).Unended := by
  cases hst : x.starts[t]? with
  | none =>
      rw [advance_of_none hst]
      exact hx
  | some s =>
      rw [advance_of_some hst]
      intro k hk
      refine hx k fun q hq => ?_
      -- the call is still there, and has heard of no result before
      have hq' : ((x.host.advance gone s).1.calls)[k]? =
          some (q.hear (x.host.endpoint.advance gone s).1.2) := by
        rw [Host.advance_eq rfl]
        show (List.map (Asked.hear _) _)[k]? = _
        rw [List.getElem?_map,
          List.getElem?_append_left (List.getElem?_eq_some_iff.mp hq).1, hq]
        rfl
      have hnone := hk _ hq'
      have hacc := congrArg Account.result (q.account_hear (x.host.endpoint.advance gone s).1.2)
      have hd : (q.hear (x.host.endpoint.advance gone s).1.2).call.delivered =
          q.call.delivered.or (q.call.id.bind (resultFor? (x.host.endpoint.advance gone s).1.2)) :=
        hacc
      rw [hnone, eq_comm, Option.or_eq_none_iff] at hd
      exact hd.1

theorem act [Handler η] (hs : x.Sound) (hx : x.Unended) {a : Act η} (ha : a.opens = false) :
    Unended { x with chronicle := x.chronicle.act a } := by
  intro k hk
  have hstep {q : Asked} (hq : x.host.calls[k]? = some q) :
      q.call.delivered = none ∧ q.cause? x.host k a = none := by
    obtain ⟨q', hq', -, hd⟩ := hs.agrees.call_step hq a
    rw [hk q' hq', eq_comm, Option.or_eq_none_iff, Option.map_eq_none_iff] at hd
    exact hd
  dsimp only
  rw [Chronicle.findSome?_act, hx k fun q hq => (hstep hq).1, Option.none_or]
  show Moment.cause? ⟨x.host, a⟩ k = none
  simp only [Moment.cause?]
  split
  · next q hq => exact (hstep hq).2
  · rw [x.host.refused?_of_opens ha]
    exact ite_self none

theorem stride [Handler η] (hs : x.Sound) (hx : x.Unended) (a : Stride η) :
    (x.stride a).Unended :=
  stride_cases hx (fun _ ha => hx.act hs (opens_of_allows ha)) hx.start hx.advance a

end Unended

theorem unended [Handler η] (c : Config) (strides : List (Stride η)) :
    ((ofConfig c).run strides).Unended :=
  (run_induction (P := fun x => x.Sound ∧ x.Unended) ⟨sound_ofConfig c, fun _ _ => rfl⟩
    (fun _ a hx => ⟨hx.1.stride a, hx.2.stride hx.1 a⟩) strides).2

/-- A cancel is queued by the act with which the caller cancels the call, finds it late or lets go of
it, before anything else has ended the call, and before the end. -/
structure Reason [Handler η] (before : List (Moment η)) (m : Moment η) (id : RequestId) : Prop where
  isOpen : m.host.endpoint.isOpen = true
  waits : id ∈ m.host.endpoint.waiting
  ends : ∃ (k : Nat) (q q' : Asked) (z : Cause), m.host.calls[k]? = some q ∧
    q.call.id = some id ∧ q.call.delivered = none ∧
    before.findSome? (·.cause? k) = none ∧ m.cause? k = some z ∧
    (z = .cancelled ∨ (∃ limit, z = .timedOut limit) ∨ z = .dropped) ∧
    m.after.calls[k]? = some q' ∧ q'.call.id = some id ∧
    q'.call.delivered = some (z.result q.proxy)

theorem Unended.reason [Handler η] (hs : x.Sound) (hx : x.Unended) {a : Act η} {id : RequestId}
    (hid : id ∈ withdrawsIn (queuedIn (x.host.step a).2)) :
    Reason x.chronicle.past ⟨x.host, a⟩ id := by
  obtain ⟨o, ho, hback⟩ := mem_withdrawsIn.mp hid
  rw [hs.agrees.queuedIn_step, Option.mem_toList] at ho
  obtain ⟨hw, k, q, z, hq, hqid, hz, hwithdrawal⟩ := Host.withdrawal_of_queues ho hback
  have hd := (hs.agrees.mem_waiting_iff (List.mem_of_getElem? hq) hqid).mp hw
  have hfirst : x.chronicle.past.findSome? (·.cause? k) = none := by
    refine hx k fun q' hq' => ?_
    obtain rfl := Option.some.inj (hq.symm.trans hq')
    exact hd
  have hcause : Moment.cause? ⟨x.host, a⟩ k = some z := by
    simp only [Moment.cause?, hq]
    exact hz
  obtain ⟨q', hq', hacc, hd'⟩ := hs.agrees.call_step hq a
  rw [hd, hz] at hd'
  refine ⟨Host.isOpen_of_withdraws ho hback, hw, k, q, q', z, hq, hqid, hd, hfirst, hcause, ?_, hq',
    (congrArg Account.id hacc).trans hqid, hd'⟩
  cases z with
  | cancelled => exact Or.inl rfl
  | timedOut limit => exact Or.inr (Or.inl ⟨limit, rfl⟩)
  | dropped => exact Or.inr (Or.inr rfl)
  | _ => cases hwithdrawal

/-! ## The order of requests -/

/-- One crowd comes after another. -/
structure Grows (x y : Crowd η) : Prop where
  queue : x.queued <+: y.queued
  ids : Start.ids x.starts <+: Start.ids y.starts
  /-- A start that is over stays as it is. -/
  kept : ∀ s ∈ x.starts, s.stage.isOver = true → s ∈ y.starts

namespace Grows

theorem refl (x : Crowd η) : x.Grows x := ⟨List.prefix_rfl, List.prefix_rfl, fun _ hs _ => hs⟩

theorem trans {x y z : Crowd η} (h : x.Grows y) (h' : y.Grows z) : x.Grows z :=
  ⟨h.queue.trans h'.queue, h.ids.trans h'.ids, fun s hs hover => h'.kept s (h.kept s hs hover) hover⟩

theorem start (x : Crowd η) (o : Opening) : x.Grows (x.start o) := by
  have hbegins := x.begins_start o
  generalize x.start o = y at hbegins
  have hids (s : Start) : Start.ids x.starts <+: Start.ids (x.starts ++ [s]) := by
    rw [Start.ids_append]
    exact List.prefix_append _ _
  cases hbegins with
  | fails => exact .refl x
  | call => exact ⟨List.prefix_rfl, hids _, fun s hs _ => List.mem_append_left _ hs⟩
  | notice => exact ⟨List.prefix_rfl, hids _, fun s hs _ => List.mem_append_left _ hs⟩

theorem advance (x : Crowd η) (t : Nat) (gone : Bool) : x.Grows (x.advance t gone) := by
  cases hst : x.starts[t]? with
  | none =>
      rw [advance_of_none hst]
      exact .refl x
  | some s =>
      have hqueued := queued_advance hst gone
      have hids := Start.ids_set hst (x.host.endpoint.advance gone s).2
      refine ⟨?queue, ?ids, ?kept⟩
      case queue => exact hqueued ▸ List.prefix_append _ _
      case ids =>
        rw [advance_of_some hst]
        exact hids ▸ List.prefix_rfl
      case kept =>
        intro s' hs' hover
        obtain ⟨i, hi⟩ := List.mem_iff_getElem?.mp hs'
        rw [advance_of_some hst]
        by_cases hit : i = t
        · subst hit
          obtain rfl := Option.some.inj (hi.symm.trans hst)
          refine (Start.mem_set hst _).mpr (Or.inl ?_)
          rw [Endpoint.advance_of_isOver _ _ hover]
        · exact (Start.mem_set hst _).mpr (Or.inr ⟨i, hit, hi⟩)

variable [Handler η]

theorem act (hx : x.Sound) (a : Act η) : x.Grows { x with chronicle := x.chronicle.act a } := by
  refine ⟨?_, List.prefix_rfl, fun _ hs _ => hs⟩
  rw [queued_act hx]
  exact List.prefix_append _ _

theorem stride (hx : x.Sound) (a : Stride η) : x.Grows (x.stride a) :=
  stride_cases (.refl x) (fun a _ => act hx a) (start x) (advance x) a

theorem run (hx : x.Sound) (strides : List (Stride η)) : x.Grows (x.run strides) := by
  induction strides generalizing x with
  | nil => exact .refl x
  | cons a strides ih => exact (stride hx a).trans (ih (hx.stride a))

/-- **What joins the queue after some moment** is the request of a call that was being started then,
or has a larger id than all that were drawn before. -/
theorem later {x y : Crowd η} (h : x.Grows y) (hx : x.Posted) (hy : y.Sound) (hp : y.Posted) :
    ∃ l, asksIn y.queued = asksIn x.queued ++ l ∧ ∀ id ∈ l,
      (∃ s ∈ x.starts, s.isUnderway id = true) ∨ ∀ id' ∈ Start.ids x.starts, id'.val < id.val := by
  obtain ⟨rest, hrest⟩ := h.queue
  have hasks : asksIn y.queued = asksIn x.queued ++ asksIn rest := by rw [← hrest, asksIn_append]
  refine ⟨asksIn rest, hasks, fun id hid => ?_⟩
  have hnodup := hp.nodup_asks hy
  rw [hasks, List.nodup_append] at hnodup
  obtain ⟨s, hs, hsent, hsid⟩ :=
    hp.mem_asks.mp (hasks ▸ List.mem_append_right (asksIn x.queued) hid)
  by_cases hdrawn : id ∈ Start.ids x.starts
  · obtain ⟨s', hs', hsid'⟩ := List.mem_filterMap.mp hdrawn
    refine Or.inl ⟨s', hs', Start.isUnderway_eq_true.mpr ⟨?_, hsid'⟩⟩
    -- had it been over, its request would have been in the queue
    by_contra hover
    obtain rfl := Start.eq_of_id hy.nodup hs (h.kept s' hs' (Bool.not_eq_false _ |>.mp hover))
      hsid hsid'
    exact hnodup.2.2 id (hx.mem_asks.mpr ⟨s, hs', hsent, hsid⟩) id hid rfl
  · refine Or.inr fun id' hid' => ?_
    obtain ⟨new, hnew⟩ := h.ids
    have hrising := hy.rising
    rw [← hnew, List.pairwise_append] at hrising
    refine hrising.2.2 id' hid' id ?_
    have hmem := Start.mem_ids hs hsid
    rw [← hnew] at hmem
    exact (List.mem_append.mp hmem).resolve_left hdrawn

end Grows

/-- A crowd in which calls were started one after the other. -/
structure Lone (x : Crowd η) : Prop where
  increasing : (asksIn x.queued).Pairwise fun a b => a.val < b.val
  /-- A call that is being started has a larger id than all that have been sent. -/
  above : ∀ s ∈ x.starts, ∀ id, s.isUnderway id = true → ∀ id' ∈ asksIn x.queued, id'.val < id.val
  lone : ∀ s ∈ x.starts, ∀ s' ∈ x.starts, ∀ id id', s.isUnderway id = true →
    s'.isUnderway id' = true → id = id'

namespace Lone

/-- A start is begun while no call is being started. -/
theorem start [Handler η] (hs : x.Sound) (hp : x.Posted) (hx : x.Lone)
    (hnone : ∀ s ∈ x.starts, ∀ id, s.isUnderway id = false) (o : Opening) : (x.start o).Lone := by
  have hqueued := x.queued_start o
  have hbegins := x.begins_start o
  generalize x.start o = y at hqueued hbegins
  have hnew {s₀ : Start} (hy : y.starts = x.starts ++ [s₀]) {s : Start} (hmem : s ∈ y.starts)
      {id : RequestId} (hunder : s.isUnderway id = true) : s₀.id? = some id := by
    rw [hy] at hmem
    rcases List.mem_append.mp hmem with hmem | hmem
    · rw [hnone s hmem id] at hunder
      cases hunder
    · exact List.mem_singleton.mp hmem ▸ (Start.isUnderway_eq_true.mp hunder).2
  cases hbegins with
  | fails => exact hx
  | call proxy args target isCall next =>
      refine ⟨hqueued ▸ hx.increasing, fun s hmem id hunder id' hid' => ?_,
        fun s hmem s' hmem' id id' hunder hunder' => ?_⟩
      · obtain rfl := Option.some.inj (hnew rfl hmem hunder)
        rw [hqueued] at hid'
        obtain ⟨s', hs', -, hsid⟩ := hp.mem_asks.mp hid'
        have hle := (hs.drawn id' (Start.mem_ids hs' hsid)).2
        have := Endpoint.toNat_nextId next
        rw [UInt64.lt_iff_toNat_lt]
        dsimp only
        omega
      · exact Option.some.inj ((hnew rfl hmem hunder).symm.trans (hnew rfl hmem' hunder'))
  | notice proxy args target isCall =>
      refine ⟨hx.increasing, fun s hmem id hunder => ?_, fun s hmem _ _ id _ hunder => ?_⟩
      · cases hnew rfl hmem hunder
      · cases hnew rfl hmem hunder

theorem act [Handler η] (hs : x.Sound) (hx : x.Lone) {a : Act η} (ha : a.opens = false) :
    Lone { x with chronicle := x.chronicle.act a } := by
  have hasks : asksIn (queued { x with chronicle := x.chronicle.act a }) = asksIn x.queued := by
    rw [queued_act hs]
    cases hq : x.host.queues? a with
    | none => rw [Option.toList_none, List.append_nil]
    | some o =>
        rw [Option.toList_some, asksIn_concat, Host.asks?_of_queues hq ha]
        exact List.append_nil _
  exact ⟨hasks ▸ hx.increasing, hasks ▸ hx.above, hx.lone⟩

theorem advance [Handler η] (hs : x.Sound) (hx : x.Lone) (t : Nat) (gone : Bool) :
    (x.advance t gone).Lone := by
  cases hst : x.starts[t]? with
  | none =>
      rw [advance_of_none hst]
      exact hx
  | some s =>
      have hmem := List.mem_of_getElem? hst
      have hstarts : (x.advance t gone).starts =
          x.starts.set t { s with stage := (x.host.endpoint.advance gone s).2 } := by
        rw [advance_of_some hst]
      -- what is being started was being started before
      have hold {s' : Start} (hs' : s' ∈ (x.advance t gone).starts) {id : RequestId}
          (hunder : s'.isUnderway id = true) : ∃ s₀ ∈ x.starts, s₀.isUnderway id = true := by
        rw [hstarts] at hs'
        rcases (Start.mem_set hst _).mp hs' with rfl | ⟨i, -, hi⟩
        · obtain ⟨hover, hid⟩ := Start.isUnderway_eq_true.mp hunder
          refine ⟨s, hmem, Start.isUnderway_eq_true.mpr ⟨?_, hid⟩⟩
          by_contra h
          rw [Bool.not_eq_false] at h
          have hover : (x.host.endpoint.advance gone s).2.isOver = false := hover
          rw [Endpoint.advance_of_isOver _ _ h, h] at hover
          cases hover
        · exact ⟨s', List.mem_of_getElem? hi, hunder⟩
      have hlone : ∀ s ∈ (x.advance t gone).starts, ∀ s' ∈ (x.advance t gone).starts, ∀ id id',
          s.isUnderway id = true → s'.isUnderway id' = true → id = id' := by
        intro s₁ hs₁ s₂ hs₂ id id' hunder hunder'
        obtain ⟨s₁', hs₁', hunder⟩ := hold hs₁ hunder
        obtain ⟨s₂', hs₂', hunder'⟩ := hold hs₂ hunder'
        exact hx.lone s₁' hs₁' s₂' hs₂' id id' hunder hunder'
      rcases queued_advance_cases hst gone with hsame | ⟨hsent, hcleared, hnew⟩
      · refine ⟨hsame ▸ hx.increasing, fun s' hs' id hunder => ?_, hlone⟩
        obtain ⟨s₀, hs₀, hunder⟩ := hold hs' hunder
        exact hsame ▸ hx.above s₀ hs₀ id hunder
      · have hunderway {id : RequestId} (hid : s.id? = some id) : s.isUnderway id = true :=
          Start.isUnderway_eq_true.mpr ⟨by rw [hcleared]; rfl, hid⟩
        refine ⟨?_, fun s' hs' id hunder id' hid' => ?_, hlone⟩
        · rw [hnew, asksIn_concat]
          refine List.pairwise_append.mpr ⟨hx.increasing, ?_, fun id hid id' hid' => ?_⟩
          · cases s.message.asks? <;> simp
          · exact hx.above s hmem id' (hunderway (Option.mem_toList.mp hid')) id hid
        · obtain ⟨s₀, hs₀, hunder₀⟩ := hold hs' hunder
          rw [hnew] at hid'
          rcases mem_asksIn_concat.mp hid' with hid' | hid'
          · exact hx.above s₀ hs₀ id hunder₀ id' hid'
          · -- the call that has just been sent was the only one that was being started
            obtain rfl := hx.lone s₀ hs₀ s hmem id id' hunder₀ (hunderway hid')
            have hs₁ : ({ s with stage := .sent } : Start) ∈ (x.advance t gone).starts := by
              rw [hstarts, hsent]
              exact (Start.mem_set hst _).mpr (Or.inl rfl)
            obtain ⟨hover, hsid⟩ := Start.isUnderway_eq_true.mp hunder
            obtain rfl := Start.eq_of_id (hs.advance t gone).nodup hs' hs₁ hsid hid'
            cases hover

theorem run [Handler η] (c : Config) (strides : List (Stride η))
    (hapart : ∀ xs o, xs ++ [.start o] <+: strides →
      ∀ s ∈ ((ofConfig c : Crowd η).run xs).starts, ∀ id, s.isUnderway id = false) :
    ((ofConfig c).run strides).Lone := by
  induction strides using List.reverseRecOn with
  | nil =>
      exact ⟨List.Pairwise.nil, fun _ hs => absurd hs List.not_mem_nil,
        fun _ hs => absurd hs List.not_mem_nil⟩
  | append_singleton strides a ih =>
      have hx := ih fun xs o hxs => hapart xs o (hxs.trans (List.prefix_append _ _))
      have hs := sound (η := η) c strides
      rw [run_concat]
      cases a with
      | act a =>
          simp only [Crowd.stride]
          split
          · next hallows => exact hx.act hs (opens_of_allows hallows)
          · exact hx
      | start o => exact hx.start hs (posted c strides) (hapart strides o List.prefix_rfl) o
      | advance t gone => exact hx.advance hs t gone

end Lone

/-- The ids of the requests and cancels that an endpoint with the settings `c` sends. -/
structure Discipline [Handler η] (c : Config) (strides : List (Stride η)) : Prop where
  /-- Ids rise in the order in which calls were begun, -/
  rising : (Start.ids ((ofConfig c : Crowd η).run strides).starts).Pairwise fun a b => a.val < b.val
  /-- a request carries the id of a call that was begun, -/
  drawn : ∀ id ∈ asksIn ((ofConfig c : Crowd η).run strides).queued,
    id ∈ Start.ids ((ofConfig c : Crowd η).run strides).starts
  /-- and no id is used twice. -/
  distinct : (asksIn ((ofConfig c : Crowd η).run strides).queued).Nodup
  /-- What joins the queue after some moment is the request of a call that was being started then, or
  has a larger id than all that were drawn before. -/
  later : ∀ xs, xs <+: strides → ∃ l,
    asksIn ((ofConfig c : Crowd η).run strides).queued =
      asksIn ((ofConfig c : Crowd η).run xs).queued ++ l ∧
    ∀ id ∈ l, (∃ s ∈ ((ofConfig c : Crowd η).run xs).starts, s.isUnderway id = true) ∨
      ∀ id' ∈ Start.ids ((ofConfig c : Crowd η).run xs).starts, id'.val < id.val
  /-- Requests are queued in the order of their ids where no start is begun while a call is being
  started. -/
  increasing : (∀ xs o, xs ++ [.start o] <+: strides →
      ∀ s ∈ ((ofConfig c : Crowd η).run xs).starts, ∀ id, s.isUnderway id = false) →
    (asksIn ((ofConfig c : Crowd η).run strides).queued).Pairwise fun a b => a.val < b.val
  /-- No call is taken back twice. -/
  once : (withdrawsIn ((ofConfig c : Crowd η).run strides).queued).Nodup
  /-- A cancel is queued behind its request. -/
  behind : ∀ l, l <+: ((ofConfig c : Crowd η).run strides).queued →
    ∀ id ∈ withdrawsIn l, id ∈ asksIn l
  /-- A cancel is queued by an act, -/
  acts : ∀ id ∈ withdrawsIn ((ofConfig c : Crowd η).run strides).queued,
    ∃ m ∈ ((ofConfig c : Crowd η).run strides).chronicle.past, id ∈ withdrawsIn (queuedIn m.events)
  /-- with which the caller takes the call back. -/
  reason : ∀ before m after,
    ((ofConfig c : Crowd η).run strides).chronicle.past = before ++ m :: after →
    ∀ id ∈ withdrawsIn (queuedIn m.events), Reason before m id

/-- **The requests and cancels of an endpoint**, however starts overlap. -/
theorem disciplined [Handler η] (c : Config) (strides : List (Stride η)) :
    Discipline c strides := by
  have hs := sound (η := η) c strides
  have hp := posted (η := η) c strides
  have hr := recalls (η := η) c strides
  refine { rising := hs.rising, drawn := ?drawn, distinct := hp.nodup_asks hs, later := ?later,
           increasing := fun hapart => (Lone.run c strides hapart).increasing, once := hr.once,
           behind := hr.behind, acts := ?acts, reason := ?reason }
  case drawn =>
    intro id hid
    obtain ⟨s, hmem, -, hsid⟩ := hp.mem_asks.mp hid
    exact Start.mem_ids hmem hsid
  case later =>
    rintro xs ⟨ys, rfl⟩
    rw [run_append] at hs hp ⊢
    exact (Grows.run (sound c xs) ys).later (posted c xs) hs hp
  case acts =>
    intro id hid
    obtain ⟨o, ho, hback⟩ := mem_withdrawsIn.mp hid
    rcases List.mem_append.mp (hp.queue.mem_iff.mp ho) with ho | ho
    · -- no start takes a call back
      obtain ⟨s, hmem, hsent⟩ := List.mem_filterMap.mp ho
      obtain ⟨-, rfl⟩ := Start.sent?_eq_some.mp hsent
      rw [hp.asking s hmem] at hback
      cases hback
    · obtain ⟨e, he, hqueued⟩ := List.mem_filterMap.mp ho
      obtain ⟨m, hm, he⟩ := List.mem_flatMap.mp he
      exact ⟨m, hm, mem_withdrawsIn.mpr ⟨o, List.mem_filterMap.mpr ⟨e, he, hqueued⟩, hback⟩⟩
  case reason =>
    intro before m after hpast id hid
    obtain ⟨xs, -, hx, -⟩ := exists_run_of_past hpast
    have hs := sound (η := η) c xs
    have hu := unended (η := η) c xs
    generalize (ofConfig c).run xs = y at hx hs hu
    obtain ⟨chronicle, starts⟩ := y
    dsimp only at hx
    subst hx
    exact hu.reason hs hid

/-- A call is begun, and another one that is begun after it is sent before it. -/
def overtaking : List (Stride Service) :=
  [.start (.request ⟨7⟩ "wait" []), .start (.request ⟨7⟩ "wait" [])] ++
    List.replicate 5 (.advance 1 false) ++ List.replicate 5 (.advance 0 false)

set_option maxRecDepth 10000 in
/-- Requests join the queue in another order than their ids. -/
theorem overtaken :
    let x : Crowd Service := (ofConfig { side := .main }).run overtaking
    asksIn x.queued = [⟨2⟩, ⟨1⟩] ∧
      ¬(asksIn x.queued).Pairwise fun a b => a.val < b.val := by
  intro x
  have hqueue : asksIn x.queued = [⟨2⟩, ⟨1⟩] := rfl
  refine ⟨hqueue, ?_⟩
  rw [hqueue]
  decide

end Crowd

end PeerRpc
