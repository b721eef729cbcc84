import PeerRpc.Proofs.Host.Offers
import PeerRpc.Proofs.Wire.Recalled

/-!
# PeerRpc.Proofs.Host.Discipline -- the ids of what an endpoint sends

An endpoint sends a request when it makes a call, and a cancel when the caller takes a call back
that still waits. Ids are handed out in order, so requests are queued in the order of their ids,
although calls that fail at once use up ids as well (`Numbered.increasing`). A call ceases to wait
when it is taken back and never waits again, so no id is cancelled twice (`Numbered.gone`), and a
call that waits has been asked for, so a cancel comes behind its request (`Numbered.waits`).

`Chronicle.Entrusted` carries this to the channel: what the channel has been handed and has not
refused is in the same order, and a request that is missing there has been refused.
-/

namespace PeerRpc

variable {η : Type}

/-- The ids of the requests among some messages. -/
def asksIn (l : List Outbound) : List RequestId := l.filterMap fun o => o.message.asks?

/-- The ids of the cancels among some messages. -/
def withdrawsIn (l : List Outbound) : List RequestId := l.filterMap fun o => o.message.withdraws?

@[simp] theorem asksIn_append (xs ys : List Outbound) :
    asksIn (xs ++ ys) = asksIn xs ++ asksIn ys := List.filterMap_append

@[simp] theorem withdrawsIn_append (xs ys : List Outbound) :
    withdrawsIn (xs ++ ys) = withdrawsIn xs ++ withdrawsIn ys := List.filterMap_append

theorem asksIn_concat (l : List Outbound) (o : Outbound) :
    asksIn (l ++ [o]) = asksIn l ++ o.message.asks?.toList := by
  rw [asksIn_append]
  unfold asksIn
  cases h : o.message.asks? <;> simp [h]

theorem withdrawsIn_concat (l : List Outbound) (o : Outbound) :
    withdrawsIn (l ++ [o]) = withdrawsIn l ++ o.message.withdraws?.toList := by
  rw [withdrawsIn_append]
  unfold withdrawsIn
  cases h : o.message.withdraws? <;> simp [h]

theorem mem_asksIn_concat {l : List Outbound} {o : Outbound} {id : RequestId} :
    id ∈ asksIn (l ++ [o]) ↔ id ∈ asksIn l ∨ o.message.asks? = some id := by
  rw [asksIn_concat, List.mem_append, Option.mem_toList]

theorem mem_withdrawsIn_concat {l : List Outbound} {o : Outbound} {id : RequestId} :
    id ∈ withdrawsIn (l ++ [o]) ↔ id ∈ withdrawsIn l ∨ o.message.withdraws? = some id := by
  rw [withdrawsIn_concat, List.mem_append, Option.mem_toList]

theorem mem_asksIn {l : List Outbound} {id : RequestId} :
    id ∈ asksIn l ↔ ∃ o ∈ l, o.message.asks? = some id := List.mem_filterMap

theorem mem_withdrawsIn {l : List Outbound} {id : RequestId} :
    id ∈ withdrawsIn l ↔ ∃ o ∈ l, o.message.withdraws? = some id := List.mem_filterMap

/-- A message that takes a call back does not make one. -/
theorem Message.asks?_of_withdraws {m : Message} {id : RequestId} (h : m.withdraws? = some id) :
    m.asks? = none := by
  rw [Message.eq_cancel_of_withdraws h]
  rfl

namespace Chronicle

variable [Handler η]

/-! ## What is queued -/

/-- What the messages of an endpoint know of its calls. -/
structure Numbered (x : Chronicle η) : Prop where
  issued : ∀ id ∈ asksIn (queuedIn x.events), id.val.toNat ≤ x.host.endpoint.issued
  increasing : (asksIn (queuedIn x.events)).Pairwise fun a b => a.val < b.val
  /-- A call that waits has been asked for. -/
  waits : ∀ id ∈ x.host.endpoint.waiting, id ∈ asksIn (queuedIn x.events)
  /-- A call that was taken back waits no longer. -/
  gone : ∀ id ∈ withdrawsIn (queuedIn x.events), id ∉ x.host.endpoint.waiting
  once : (withdrawsIn (queuedIn x.events)).Nodup
  /-- However many messages one looks at, those that take calls back stand behind those that make
  them. -/
  behind : ∀ l, l <+: queuedIn x.events → ∀ id ∈ withdrawsIn l, id ∈ asksIn l

section

variable {x : Chronicle η} {a : Act η}

theorem queuedIn_act (hs : x.host.Sound) (a : Act η) :
    queuedIn (x.act a).events = queuedIn x.events ++ (x.host.queues? a).toList := by
  rw [events_act, queuedIn_append, hs.queuedIn_step]

/-- An act that queues nothing makes no call. -/
theorem Numbered.act_of_none (hx : x.Numbered) (hs : x.host.Sound)
    (hq : x.host.queues? a = none) : (x.act a).Numbered := by
  have hsame : queuedIn (x.act a).events = queuedIn x.events := by
    rw [queuedIn_act hs, hq]
    exact List.append_nil _
  have hissued := x.host.issued_step a
  constructor
  all_goals rw [hsame]
  case issued => exact fun id hid => Nat.le_trans (hx.issued id hid) hissued
  case increasing => exact hx.increasing
  case once => exact hx.once
  case behind => exact hx.behind
  case waits =>
    intro id hw
    by_cases hold : id ∈ x.host.endpoint.waiting
    · exact hx.waits id hold
    · obtain ⟨proxy, method, args, hjoin⟩ := Host.joins hold hw
      rw [hq] at hjoin
      cases hjoin
  case gone =>
    intro id hid
    obtain ⟨o, ho, hback⟩ := mem_withdrawsIn.mp hid
    refine Host.not_mem_waiting_step (hx.issued id ?_) (hx.gone id hid) a
    exact hx.behind _ List.prefix_rfl id hid

/-- An act that queues a message makes its call or ends it, if it does either. -/
theorem Numbered.act_of_some (hx : x.Numbered) (hs : x.host.Sound) {o : Outbound}
    (hq : x.host.queues? a = some o) : (x.act a).Numbered := by
  have hnew : queuedIn (x.act a).events = queuedIn x.events ++ [o] := by
    rw [queuedIn_act hs, hq]
    rfl
  have hissued := x.host.issued_step a
  have hback {id : RequestId} (ho : o.message.withdraws? = some id) :
      id ∈ x.host.endpoint.waiting ∧ id ∉ (x.host.step a).1.endpoint.waiting := by
    obtain ⟨hw, rfl⟩ := Host.waited_of_withdraws hq ho
    exact ⟨hw, hs.left (.cancelled hq)⟩
  constructor
  all_goals rw [hnew]
  case issued =>
    intro id hid
    rcases mem_asksIn_concat.mp hid with hid | hask
    · exact Nat.le_trans (hx.issued id hid) hissued
    · exact (hs.step a).issued_of_waiting (Host.new_of_asks hq hask).2
  case increasing =>
    rw [asksIn_concat]
    cases hask : o.message.asks? with
    | none => simpa using hx.increasing
    | some id' =>
        refine List.pairwise_append.mpr ⟨hx.increasing, List.pairwise_singleton _ _, ?_⟩
        intro id hid _ hid'
        obtain rfl := List.mem_singleton.mp hid'
        rw [UInt64.lt_iff_toNat_lt]
        exact Nat.lt_of_le_of_lt (hx.issued id hid) (Host.new_of_asks hq hask).1
  case waits =>
    intro id hw
    rw [mem_asksIn_concat]
    by_cases hold : id ∈ x.host.endpoint.waiting
    · exact Or.inl (hx.waits id hold)
    · obtain ⟨proxy, method, args, hjoin⟩ := Host.joins hold hw
      rw [hq] at hjoin
      obtain rfl := Option.some.inj hjoin
      exact Or.inr rfl
  case gone =>
    intro id hid
    rcases mem_withdrawsIn_concat.mp hid with hid | ho
    · exact Host.not_mem_waiting_step
        (hx.issued id (hx.behind _ List.prefix_rfl id hid)) (hx.gone id hid) a
    · exact (hback ho).2
  case once =>
    rw [withdrawsIn_concat]
    cases ho : o.message.withdraws? with
    | none => simpa using hx.once
    | some id' =>
        refine List.nodup_append.mpr ⟨hx.once, List.nodup_singleton _, ?_⟩
        rintro id hid _ hid' rfl
        obtain rfl := List.mem_singleton.mp hid'
        exact hx.gone id hid (hback ho).1
  case behind =>
    intro l hl id hid
    rcases List.prefix_concat_iff.mp hl with rfl | hl
    · rw [mem_asksIn_concat]
      refine Or.inl ?_
      rcases mem_withdrawsIn_concat.mp hid with hid | ho
      · exact hx.behind _ List.prefix_rfl id hid
      · exact hx.waits id (hback ho).1
    · exact hx.behind l hl id hid

end

theorem numbered_ofConfig (c : Config) : (ofConfig c : Chronicle η).Numbered where
  issued := fun _ hid => absurd hid List.not_mem_nil
  increasing := List.Pairwise.nil
  waits := fun _ hid => absurd hid List.not_mem_nil
  gone := fun _ hid => absurd hid List.not_mem_nil
  once := List.nodup_nil
  behind := by
    intro l hl id hid
    have hl' : l <+: [] := hl
    rw [List.prefix_nil.mp hl'] at hid
    exact absurd hid List.not_mem_nil

theorem numbered (c : Config) (acts : List (Act η)) : ((ofConfig c).run acts).Numbered := by
  refine (run_induction (P := fun x => x.host.Sound ∧ x.Numbered)
    ⟨Host.sound_ofConfig c, numbered_ofConfig c⟩ ?_ acts).2
  rintro x a ⟨hs, hx⟩
  refine ⟨hs.step a, ?_⟩
  cases hq : x.host.queues? a with
  | none => exact hx.act_of_none hs hq
  | some o => exact hx.act_of_some hs hq

/-! ## What is handed to the channel -/

/-- Some messages after an act: with the message that it hands to the channel, or without the last
one, which the channel refuses. -/
def entrust (l : List Outbound) (m : Moment η) : List Outbound :=
  match m.host.bounced? m.act with
  | some _ => l.dropLast
  | none => l ++ (m.host.offers? m.act).toList

/-- The messages that the channel has been handed and has not refused, in order. -/
def entrusted (x : Chronicle η) : List Outbound := x.past.foldl entrust []

@[simp] theorem entrusted_act (x : Chronicle η) (a : Act η) :
    (x.act a).entrusted = entrust x.entrusted ⟨x.host, a⟩ := by
  simp only [entrusted, past_act, List.foldl_append, List.foldl_cons, List.foldl_nil]

theorem entrusted_of_none {x : Chronicle η} {a : Act η} (hoff : x.host.offers? a = none)
    (hb : x.host.bounced? a = none) : (x.act a).entrusted = x.entrusted := by
  rw [entrusted_act]
  simp only [entrust, hb, hoff]
  exact List.append_nil _

theorem entrusted_of_offers {x : Chronicle η} {o : Outbound} (hoff : x.host.offers? .take = some o) :
    (x.act .take).entrusted = x.entrusted ++ [o] := by
  rw [entrusted_act]
  simp only [entrust, hoff]
  rfl

theorem entrusted_of_bounced {x : Chronicle η} {a : Act η} {o : Outbound} {err : TransportError}
    (hb : x.host.bounced? a = some (o, err)) : (x.act a).entrusted = x.entrusted.dropLast := by
  rw [entrusted_act]
  simp only [entrust, hb]

/-- The channel has refused the request with this id. -/
def Refused (x : Chronicle η) (id : RequestId) : Prop :=
  ∃ m ∈ x.past, ∃ o err, m.host.bounced? m.act = some (o, err) ∧ o.message.asks? = some id

theorem Refused.act {x : Chronicle η} {id : RequestId} (h : x.Refused id) (a : Act η) :
    (x.act a).Refused id := by
  obtain ⟨m, hm, hb⟩ := h
  exact ⟨m, List.mem_append_left _ hm, hb⟩

/-- How what the channel has been handed and has not refused follows what it was offered. -/
structure Entrusted (x : Chronicle η) : Prop where
  /-- A message that the channel has not answered to is the last one. -/
  last : ∀ o, x.host.sending = some o → ∃ l, x.entrusted = l ++ [o]
  sublist : x.entrusted.Sublist x.offered
  /-- A request that is missing has been refused. -/
  whole : ∀ id ∈ asksIn x.offered, id ∈ asksIn x.entrusted ∨ x.Refused id
  behind : ∀ l, l <+: x.entrusted → ∀ id ∈ withdrawsIn l, id ∈ asksIn l ∨ x.Refused id

section

variable {x : Chronicle η} {a : Act η}

/-- An act that neither hands a message over nor has one refused. -/
theorem Entrusted.act_of_none (hx : x.Entrusted) (hoff : x.host.offers? a = none)
    (hb : x.host.bounced? a = none) (hs : ∀ o, (x.host.step a).1.sending = some o →
      x.host.sending = some o) : (x.act a).Entrusted := by
  have hsame := entrusted_of_none hoff hb
  have hsame' : (x.act a).offered = x.offered := by
    rw [offered_act, hoff]
    exact List.append_nil _
  refine ⟨fun o ho => ?_, ?_, fun id hid => ?_, fun l hl id hid => ?_⟩
  · rw [hsame]
    exact hx.last o (hs o ho)
  · rw [hsame, hsame']
    exact hx.sublist
  · rw [hsame]
    exact (hx.whole id (hsame' ▸ hid)).imp_right fun h => h.act a
  · exact (hx.behind l (hsame ▸ hl) id hid).imp_right fun h => h.act a

/-- The channel is handed a message. -/
theorem Entrusted.act_of_offers (hx : x.Entrusted) {o : Outbound}
    (hoff : x.host.offers? a = some o)
    (hbehind : ∀ id, o.message.withdraws? = some id → id ∈ asksIn (x.offered ++ [o])) :
    (x.act a).Entrusted := by
  obtain ⟨rfl, hs, hopen, rest, ho⟩ := Host.offers?_eq_some.mp hoff
  have hnew := entrusted_of_offers hoff
  have hnew' : (x.act .take).offered = x.offered ++ [o] := by
    rw [offered_act, hoff]
    rfl
  have hwhole : ∀ id ∈ asksIn (x.act .take).offered,
      id ∈ asksIn (x.act .take).entrusted ∨ (x.act .take).Refused id := by
    intro id hid
    rw [hnew', mem_asksIn_concat] at hid
    rw [hnew, mem_asksIn_concat]
    rcases hid with hid | hask
    · exact (hx.whole id hid).imp Or.inl fun h => h.act .take
    · exact Or.inl (Or.inr hask)
  refine ⟨fun o' ho' => ⟨x.entrusted, ?_⟩, ?_, hwhole, fun l hl id hid => ?_⟩
  · rw [host_act, Host.step_take hs hopen ho] at ho'
    obtain rfl := Option.some.inj ho'
    exact hnew
  · rw [hnew, hnew']
    exact hx.sublist.append (List.Sublist.refl [o])
  · rw [hnew] at hl
    rcases List.prefix_concat_iff.mp hl with rfl | hl
    · rcases mem_withdrawsIn_concat.mp hid with hid | hback
      · rw [mem_asksIn_concat]
        exact (hx.behind _ List.prefix_rfl id hid).imp Or.inl fun h => h.act .take
      · rw [← hnew]
        exact hwhole id (hnew' ▸ hbehind id hback)
    · exact (hx.behind l hl id hid).imp_right fun h => h.act .take

/-- The channel refuses a message. -/
theorem Entrusted.act_of_bounced (hx : x.Entrusted) {o : Outbound} {err : TransportError}
    (hb : x.host.bounced? a = some (o, err)) : (x.act a).Entrusted := by
  obtain ⟨rfl, hs, -⟩ := Host.bounced?_eq_some hb
  obtain ⟨l₀, hl₀⟩ := hx.last o hs
  have hnew : (x.act (.sent (.error err))).entrusted = l₀ := by
    rw [entrusted_of_bounced hb, hl₀, List.dropLast_concat]
  have hnew' : (x.act (.sent (.error err))).offered = x.offered := by
    rw [offered_act]
    exact List.append_nil _
  refine ⟨fun o' ho' => ?_, ?_, fun id hid => ?_, fun l hl id hid => ?_⟩
  · rw [host_act, Host.sending_sent] at ho'
    cases ho'
  · rw [hnew, hnew']
    exact ((List.sublist_append_left l₀ [o]).trans (hl₀ ▸ hx.sublist))
  · rw [hnew] at *
    rcases hx.whole id (hnew' ▸ hid) with hold | href
    · rw [hl₀] at hold
      rcases mem_asksIn_concat.mp hold with hold | hask
      · exact Or.inl hold
      · -- the request that is taken away has just been refused
        exact Or.inr ⟨⟨x.host, _⟩, List.mem_append_right _ (List.mem_singleton_self _), o, err,
          hb, hask⟩
    · exact Or.inr (href.act _)
  · rw [hnew] at hl
    have hl' : l <+: x.entrusted := hl.trans (hl₀ ▸ List.prefix_append l₀ [o])
    exact (hx.behind l hl' id hid).imp_right fun h => h.act _

end

omit [Handler η] in
theorem entrusted_ofConfig (c : Config) : (ofConfig c : Chronicle η).Entrusted where
  last := fun _ ho => by cases ho
  sublist := List.Sublist.refl _
  whole := fun _ hid => absurd hid List.not_mem_nil
  behind := by
    intro l hl id hid
    have hl' : l <+: [] := hl
    rw [List.prefix_nil.mp hl'] at hid
    exact absurd hid List.not_mem_nil

end Chronicle

end PeerRpc
