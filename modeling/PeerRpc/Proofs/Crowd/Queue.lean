import PeerRpc.Proofs.Crowd.Starts
import PeerRpc.Proofs.Host.Discipline

/-!
# PeerRpc.Proofs.Crowd.Queue -- the messages that join the queue of a crowd

A message joins the queue by the last step of a start or by an act, and no act queues a request
(`Chronicle.asks?_of_queues`). So the messages that have ever joined the queue are those of the
starts that were sent, one each, and those that acts have queued (`Crowd.Posted`). The order in which
they have joined says little of the order in which the starts were begun.
-/

namespace PeerRpc

variable {η : Type}

/-! ## Starts that were sent -/

namespace Start

/-- The message that a start has let join the queue. -/
def sent? (s : Start) : Option Outbound :=
  match s.stage with
  | .sent => some { message := s.message }
  | _ => none

theorem sent?_eq_some {s : Start} {o : Outbound} :
    s.sent? = some o ↔ s.stage = .sent ∧ o = { message := s.message } := by
  unfold sent?
  cases s.stage <;> simp [eq_comm]

/-- What one start lets join the queue comes to what has joined it. -/
theorem sent_set {starts : List Start} {t : Nat} {s s' : Start} (hs : starts[t]? = some s)
    {l : List Outbound} (hl : s.sent?.toList ++ l = s'.sent?.toList) :
    ((starts.set t s').filterMap sent?).Perm (starts.filterMap sent? ++ l) := by
  induction starts generalizing t with
  | nil => cases hs
  | cons s₀ starts ih =>
      have hcons : ∀ (s : Start) (starts : List Start),
          (s :: starts).filterMap sent? = s.sent?.toList ++ starts.filterMap sent? := by
        intro s starts
        cases h : s.sent? <;> simp [h]
      cases t with
      | zero =>
          obtain rfl := Option.some.inj hs
          rw [List.set_cons_zero, hcons, hcons, ← hl, List.append_assoc, List.append_assoc]
          exact List.Perm.append_left _ List.perm_append_comm
      | succ t =>
          rw [List.set_cons_succ, hcons, hcons, List.append_assoc]
          exact List.Perm.append_left _ (ih hs)

/-- The requests that were sent are those of some of the calls. -/
theorem asksIn_sent (starts : List Start) :
    (asksIn (starts.filterMap sent?)).Sublist (ids starts) := by
  induction starts with
  | nil => exact List.Sublist.refl _
  | cons s starts ih =>
      have hids : ids (s :: starts) = s.id?.toList ++ ids starts := by
        unfold ids
        cases h : s.id? <;> simp [h]
      rw [hids]
      cases hsent : s.sent? with
      | none =>
          rw [List.filterMap_cons_none hsent]
          exact ih.trans (List.sublist_append_right _ _)
      | some o =>
          obtain ⟨-, rfl⟩ := sent?_eq_some.mp hsent
          have hasks (l : List Outbound) : asksIn ({ message := s.message } :: l) =
              s.id?.toList ++ asksIn l := by
            unfold asksIn
            cases h : s.message.asks? <;> simp [h, id?]
          rw [List.filterMap_cons_some hsent, hasks]
          exact ih.append_left _

theorem mem_asksIn_sent {starts : List Start} {id : RequestId} :
    id ∈ asksIn (starts.filterMap sent?) ↔ ∃ s ∈ starts, s.stage = .sent ∧ s.id? = some id := by
  rw [mem_asksIn]
  constructor
  · rintro ⟨o, ho, hask⟩
    obtain ⟨s, hs, hsent⟩ := List.mem_filterMap.mp ho
    obtain ⟨hstage, rfl⟩ := sent?_eq_some.mp hsent
    exact ⟨s, hs, hstage, hask⟩
  · rintro ⟨s, hs, hstage, hid⟩
    exact ⟨_, List.mem_filterMap.mpr ⟨s, hs, sent?_eq_some.mpr ⟨hstage, rfl⟩⟩, hid⟩

end Start

/-- Whether the message of a start that has come so far has been found to be encodable. -/
def Stage.isChecked : Stage → Bool
  | begun => false
  | found => false
  | refused _ => false
  | _ => true

namespace Endpoint

variable {e : Endpoint η} {gone : Bool} {s : Start} {r : Endpoint.Step η × Stage}

/-- A start that is over stays as it is. -/
theorem advance_of_isOver (e : Endpoint η) (gone : Bool) (hover : s.stage.isOver = true) :
    e.advance gone s = ((e, []), s.stage) := by
  obtain ⟨message, since, stage⟩ := s
  cases stage <;> first | rfl | cases hover

theorem queuedIn_turnDown (e : Endpoint η) (s : Start) (err : CallError) :
    queuedIn (e.turnDown s err).1.2 = [] := by
  unfold turnDown
  cases s.id? <;> rfl

/-- A step of a start lets its message join the queue if it is the last one, and nothing else. -/
theorem sent_of_advance (hr : e.Advance gone s r) :
    s.sent?.toList ++ queuedIn r.1.2 = ({ s with stage := r.2 } : Start).sent?.toList := by
  cases hr with
  | rests same =>
      simp only [Start.sent?, same]
      exact List.append_nil _
  | looks looks => cases looks <;> simp [Start.sent?, queuedIn, *]
  | refused why =>
      rw [queuedIn_turnDown]
      cases why <;> simp [Start.sent?, turnDown, *]
  | enters stage => simp [Start.sent?, queuedIn, stage]
  | sends stage => simp [Start.sent?, queuedIn, put, Event.queued?, stage]
  | withdraws stage =>
      rw [queuedIn_settle]
      simp [Start.sent?, stage]

theorem outbound_of_advance (hr : e.Advance gone s r) :
    r.1.1.outbound = e.outbound ++ queuedIn r.1.2 := by
  cases hr with
  | rests | looks | enters => exact (List.append_nil _).symm
  | refused why =>
      rw [queuedIn_turnDown]
      exact (List.append_nil _).symm
  | sends => rfl
  | withdraws => exact (regular_settle e _ _).outbound

/-- What is put into the queue has been found to be encodable. -/
theorem isChecked_of_advance (hr : e.Advance gone s r)
    (hold : s.stage.isChecked = true → ∃ bs, Codec.encodeMessage s.message = .ok bs)
    (hnew : r.2.isChecked = true) : ∃ bs, Codec.encodeMessage s.message = .ok bs := by
  cases hr with
  | rests same => exact hold (same ▸ hnew)
  | looks looks =>
      cases looks with
      | finds => cases hnew
      | admits _ _ _ encodes => exact encodes
      | clearsNotice _ _ encodes => exact encodes
      | clears stage => exact hold (by rw [stage]; rfl)
      | stops stage => exact hold (by rw [stage]; rfl)
      | misses stage => exact hold (by rw [stage]; rfl)
  | refused => cases hnew
  | enters stage => exact hold (by rw [stage]; rfl)
  | sends stage => exact hold (by rw [stage]; rfl)
  | withdraws stage => exact hold (by rw [stage]; rfl)

end Endpoint

/-! ## What joins the queue -/

/-- An act that starts nothing queues no request. -/
theorem Host.asks?_of_queues [Handler η] {h : Host η} {a : Act η} {o : Outbound}
    (hq : h.queues? a = some o) (ha : a.opens = false) : o.message.asks? = none := by
  cases hask : o.message.asks? with
  | none => rfl
  | some id =>
      obtain ⟨proxy, method, args, rfl⟩ := Host.eq_of_asks hq hask
      obtain ⟨-, -, -, -, rfl | ⟨i, -, rfl⟩⟩ := Host.posting_request hq
      · cases ha
      · cases ha

namespace Crowd

/-- Every message that has joined the queue, in order. -/
def queued (x : Crowd η) : List Outbound := x.chronicle.offered ++ x.host.endpoint.outbound

variable {x : Crowd η}

theorem queued_start (x : Crowd η) (o : Opening) : (x.start o).queued = x.queued := by
  have hbegins := x.begins_start o
  generalize x.start o = y at hbegins
  cases hbegins <;> rfl

theorem queued_advance {t : Nat} {s : Start} (hs : x.starts[t]? = some s) (gone : Bool) :
    (x.advance t gone).queued =
      x.queued ++ queuedIn (x.host.endpoint.advance gone s).1.2 := by
  rw [advance_of_some hs]
  show x.chronicle.offered ++ (x.host.endpoint.advance gone s).1.1.outbound = _
  rw [Endpoint.outbound_of_advance (x.host.endpoint.advance_cases gone s), ← List.append_assoc]
  rfl

variable [Handler η]

theorem queued_act (hx : x.Sound) (a : Act η) :
    queued { x with chronicle := x.chronicle.act a } = x.queued ++ (x.host.queues? a).toList := by
  show (x.chronicle.act a).offered ++ (x.chronicle.act a).host.endpoint.outbound =
    x.chronicle.offered ++ x.chronicle.host.endpoint.outbound ++ _
  rw [Chronicle.offered_act, Chronicle.host_act, List.append_assoc,
    ← x.chronicle.host.offers_step a, ← List.append_assoc]
  exact congrArg _ (hx.agrees.queuedIn_step a)

omit [Handler η] in
/-- A step of a start lets its message join the queue, or nothing. -/
theorem queued_advance_cases {t : Nat} {s : Start} (hs : x.starts[t]? = some s) (gone : Bool) :
    (x.advance t gone).queued = x.queued ∨
      (x.host.endpoint.advance gone s).2 = .sent ∧ s.stage = .cleared ∧
        (x.advance t gone).queued = x.queued ++ [{ message := s.message }] := by
  have hr := x.host.endpoint.advance_cases gone s
  rw [queued_advance hs gone]
  generalize x.host.endpoint.advance gone s = r at hr
  cases hr with
  | sends stage => exact Or.inr ⟨rfl, stage, rfl⟩
  | rests | looks | enters => exact Or.inl (List.append_nil _)
  | refused => exact Or.inl (by rw [Endpoint.queuedIn_turnDown, List.append_nil])
  | withdraws => exact Or.inl (by rw [Endpoint.queuedIn_settle, List.append_nil])

/-- Where the messages of the queue come from. -/
structure Posted (x : Crowd η) : Prop where
  /-- They are the messages of the starts that were sent and those that acts have queued. -/
  queue : x.queued.Perm (x.starts.filterMap Start.sent? ++ queuedIn x.chronicle.events)
  /-- No act queues a request, or a message that is nested too deep. -/
  acts : ∀ o ∈ queuedIn x.chronicle.events,
    o.message.asks? = none ∧ ∀ v ∈ o.message.payloads, v.depth ≤ Codec.maxDepth
  checked : ∀ s ∈ x.starts, s.stage.isChecked = true →
    ∃ bs, Codec.encodeMessage s.message = .ok bs
  /-- No start takes a call back. -/
  asking : ∀ s ∈ x.starts, s.message.withdraws? = none
  /-- The channel has been offered the message that it has in its hands. -/
  sending : ∀ o, x.host.sending = some o → o ∈ x.chronicle.offered

namespace Posted

theorem act (hx : x.Sound) (hp : x.Posted) {a : Act η} (ha : a.opens = false) :
    Posted { x with chronicle := x.chronicle.act a } := by
  have hevents : queuedIn (x.chronicle.act a).events =
      queuedIn x.chronicle.events ++ (x.host.queues? a).toList := by
    rw [Chronicle.events_act, queuedIn_append]
    exact congrArg _ (hx.agrees.queuedIn_step a)
  refine { queue := ?queue, acts := ?acts, checked := hp.checked, asking := hp.asking,
           sending := ?sending }
  case queue =>
    rw [queued_act hx]
    dsimp only
    rw [hevents, ← List.append_assoc]
    exact hp.queue.append_right _
  case acts =>
    dsimp only
    rw [hevents]
    intro o ho
    rcases List.mem_append.mp ho with ho | ho
    · exact hp.acts o ho
    · have hq := Option.mem_toList.mp ho
      exact ⟨Host.asks?_of_queues hq ha, (Host.posting hq).depth⟩
  case sending =>
    intro o ho
    dsimp only
    rw [Chronicle.offered_act]
    cases hoff : x.chronicle.host.offers? a with
    | none => exact List.mem_append_left _ (hp.sending o (Host.sending_of_not_offers hoff ho))
    | some o' =>
        obtain ⟨rfl, hs, hopen, rest, hout⟩ := Host.offers?_eq_some.mp hoff
        have ho' : (x.chronicle.host.step .take).1.sending = some o := ho
        rw [Host.step_take hs hopen hout] at ho'
        obtain rfl := Option.some.inj ho'
        exact List.mem_append_right _ (List.mem_singleton_self _)

/-- Another start is begun. -/
theorem join (hp : x.Posted) {s : Start} (hs : s.stage = .begun)
    (hask : s.message.withdraws? = none) {h : Host η}
    (ho : h.endpoint.outbound = x.host.endpoint.outbound) (hsending : h.sending = x.host.sending) :
    Posted { chronicle := { x.chronicle with host := h }, starts := x.starts ++ [s] } := by
  refine { queue := ?queue, acts := hp.acts, checked := ?checked, asking := ?asking,
           sending := fun o h => hp.sending o (hsending ▸ h) }
  case queue =>
    show (x.chronicle.offered ++ h.endpoint.outbound).Perm _
    dsimp only
    rw [ho, List.filterMap_append]
    simp only [List.filterMap_cons, List.filterMap_nil, Start.sent?, hs, List.append_nil]
    exact hp.queue
  case checked =>
    intro s' hs' hc
    rcases List.mem_append.mp hs' with hs' | hs'
    · exact hp.checked s' hs' hc
    · rw [List.mem_singleton.mp hs', hs] at hc
      cases hc
  case asking =>
    intro s' hs'
    rcases List.mem_append.mp hs' with hs' | hs'
    · exact hp.asking s' hs'
    · rw [List.mem_singleton.mp hs']
      exact hask

theorem start (hp : x.Posted) (o : Opening) : (x.start o).Posted := by
  have hbegins := x.begins_start o
  generalize x.start o = y at hbegins
  cases hbegins with
  | fails => exact hp
  | call => exact hp.join rfl rfl rfl rfl
  | notice => exact hp.join rfl rfl rfl rfl

theorem advance (hp : x.Posted) (t : Nat) (gone : Bool) : (x.advance t gone).Posted := by
  cases hs : x.starts[t]? with
  | none =>
      rw [advance_of_none hs]
      exact hp
  | some s =>
      have hr := x.host.endpoint.advance_cases gone s
      have hqueued := queued_advance hs gone
      rw [advance_of_some hs] at hqueued ⊢
      refine { queue := ?queue, acts := hp.acts, checked := ?checked, asking := ?asking,
               sending := hp.sending }
      case queue =>
        rw [hqueued]
        dsimp only
        refine (hp.queue.append_right _).trans ?_
        refine List.Perm.trans ?_
          ((Start.sent_set hs (Endpoint.sent_of_advance hr)).symm.append_right _)
        rw [List.append_assoc, List.append_assoc]
        exact List.Perm.append_left _ List.perm_append_comm
      case checked =>
        intro s' hs' hc
        rcases (Start.mem_set hs _).mp hs' with rfl | ⟨i, -, hi⟩
        · show ∃ bs, Codec.encodeMessage s.message = .ok bs
          exact Endpoint.isChecked_of_advance hr (hp.checked s (List.mem_of_getElem? hs)) hc
        · exact hp.checked s' (List.mem_of_getElem? hi) hc
      case asking =>
        intro s' hs'
        rcases (Start.mem_set hs _).mp hs' with rfl | ⟨i, -, hi⟩
        · exact hp.asking s (List.mem_of_getElem? hs)
        · exact hp.asking s' (List.mem_of_getElem? hi)

theorem stride (hx : x.Sound) (hp : x.Posted) (a : Stride η) : (x.stride a).Posted :=
  stride_cases hp (fun _ ha => hp.act hx (opens_of_allows ha)) hp.start hp.advance a

end Posted

theorem posted_ofConfig (c : Config) : (ofConfig c : Crowd η).Posted where
  queue := List.Perm.refl _
  acts := fun _ ho => absurd ho List.not_mem_nil
  checked := fun _ hs => absurd hs List.not_mem_nil
  asking := fun _ hs => absurd hs List.not_mem_nil
  sending := nofun

/-- **The messages of the queue come from starts that were sent and from acts.** -/
theorem posted (c : Config) (strides : List (Stride η)) : ((ofConfig c).run strides).Posted :=
  (run_induction (P := fun x => x.Sound ∧ x.Posted) ⟨sound_ofConfig c, posted_ofConfig c⟩
    (fun _ a hx => ⟨hx.1.stride a, hx.2.stride hx.1 a⟩) strides).2

namespace Posted

/-- The requests of the queue are those of the starts that were sent. -/
theorem asks_perm (hp : x.Posted) :
    (asksIn x.queued).Perm (asksIn (x.starts.filterMap Start.sent?)) := by
  have hnone : asksIn (queuedIn x.chronicle.events) = [] :=
    List.filterMap_eq_nil_iff.mpr fun o ho => (hp.acts o ho).1
  have hperm := hp.queue.filterMap fun o => o.message.asks?
  rw [List.filterMap_append] at hperm
  rw [show List.filterMap _ (queuedIn x.chronicle.events) = [] from hnone, List.append_nil] at hperm
  exact hperm

theorem mem_asks (hp : x.Posted) {id : RequestId} :
    id ∈ asksIn x.queued ↔ ∃ s ∈ x.starts, s.stage = .sent ∧ s.id? = some id := by
  rw [hp.asks_perm.mem_iff, Start.mem_asksIn_sent]

/-- No id is used twice. -/
theorem nodup_asks (hx : x.Sound) (hp : x.Posted) : (asksIn x.queued).Nodup :=
  hp.asks_perm.nodup_iff.mpr ((Start.asksIn_sent x.starts).nodup hx.nodup)

/-- What is put into the queue is not nested too deep. -/
theorem depth (hp : x.Posted) :
    ∀ o ∈ x.queued, ∀ v ∈ o.message.payloads, v.depth ≤ Codec.maxDepth := by
  intro o ho
  rcases List.mem_append.mp (hp.queue.mem_iff.mp ho) with ho | ho
  · obtain ⟨s, hs, hsent⟩ := List.mem_filterMap.mp ho
    obtain ⟨hstage, rfl⟩ := Start.sent?_eq_some.mp hsent
    obtain ⟨bs, hbs⟩ := hp.checked s hs (by rw [hstage]; rfl)
    exact ((Codec.encodeMessage_eq_ok _ _).mp hbs).1
  · exact (hp.acts o ho).2

end Posted

end Crowd

end PeerRpc
