import PeerRpc.Proofs.Host.Custody
import PeerRpc.Proofs.Wire.Legible

/-!
# PeerRpc.Proofs.Wire.Traced -- where requests and answers come from

A request that arrives was made by a call of the other side, with its id, its service, its method
and its arguments, and arrives once. An answer to a call that waits was sent because the run for
that very request ended, or because there was no service (`Wire.Source`). Nothing is assumed about
how much is lost, so this holds before and after an endpoint has closed. `Wire.Traced` is the
invariant: the caller's turn keeps it (`Wire.Turn.traced_self`), and so does the other side's
(`Wire.Turn.traced_other`), unless handlers fire the signals of their own calls.
-/

namespace PeerRpc

variable {η : Type} [Handler η]

namespace Wire

/-- Why an answer to the request `id` was sent by an endpoint on a line with this limit. -/
inductive Source (limit : Nat) (x : Chronicle η) (id : RequestId) (o : Outbound) : Prop
  /-- The run for the request ended. -/
  | outcome (m : Moment η) (past : m ∈ x.past) (r : Run η) (out : Outcome)
      (ends : m.host.Ends m.act id o r out) (own : out.isOwn = true)
  /-- The run for the request ended, and the line refused its answer. -/
  | substitute (m : Moment η) (past : m ∈ x.past) (r : Run η) (out : Outcome) (o' : Outbound)
      (ends : m.host.Ends m.act id o' r out) (own : out.isOwn = true)
      (size : limit < o'.bytes.length) (last : o.lastResort = true)
      (message : o.message =
        .replyErr id (Endpoint.undelivered (.frameTooLarge o'.bytes.length limit)))
  /-- There was no service. -/
  | miss (m : Moment η) (past : m ∈ x.past) (proxy : ProxyId)
      (misses : m.host.Misses m.act id o proxy)

theorem Source.mono {limit : Nat} {x : Chronicle η} {id : RequestId} {o : Outbound}
    (h : Source limit x id o) (a : Act η) : Source limit (x.act a) id o := by
  have hpast : ∀ m ∈ x.past, m ∈ (x.act a).past := fun m hm => List.mem_append_left _ hm
  cases h with
  | outcome m past r out ends own => exact .outcome m (hpast m past) r out ends own
  | substitute m past r out o' ends own size last message =>
      exact .substitute m (hpast m past) r out o' ends own size last message
  | miss m past proxy misses => exact .miss m (hpast m past) proxy misses

/-- How often a request with this id has arrived. -/
def arrivals (x : Chronicle η) (id : RequestId) : Nat :=
  x.past.countP fun m => (m.host.receives? m.act).bind Message.asks? = some id

theorem arrivals_act (x : Chronicle η) (a : Act η) (id : RequestId) :
    arrivals (x.act a) id =
      arrivals x id + (x.host.receives? a).toList.countP fun m => m.asks? = some id := by
  unfold arrivals
  rw [Chronicle.past_act, List.countP_append, List.countP_singleton]
  cases x.host.receives? a <;> simp

/-- Where the requests and the answers of the calls of a side come from. -/
structure Traced (limit : Nat) (w : Wire η) (s : Side) : Prop where
  /-- A request is made once, and arrives once. -/
  single : ∀ id, (w.road s).countP (fun o => o.message.asks? = some id) +
    arrivals (w.chronicle s.opposite) id ≤ 1
  known : ∀ id, 0 < (w.road s).countP (fun o => o.message.asks? = some id) +
    arrivals (w.chronicle s.opposite) id → id.val.toNat ≤ (w.host s).endpoint.issued
  wished : ∀ o ∈ w.road s, ∀ id proxy method args, o.message = .request id proxy method args →
    (some id, proxy, method, args) ∈ (w.host s).calls.map Asked.wish
  arrived : ∀ m ∈ (w.chronicle s.opposite).past, ∀ id proxy method args,
    m.host.receives? m.act = some (.request id proxy method args) →
      ∃ args₀, (some id, proxy, method, args₀) ∈ (w.host s).calls.map Asked.wish ∧
        args = args₀.map Value.sorted
  /-- Only calls are taken back that wait no longer. -/
  withdrawn : ∀ o ∈ w.road s, ∀ id, o.message.withdraws? = some id →
    id.val.toNat ≤ (w.host s).endpoint.issued ∧ id ∉ (w.host s).endpoint.waiting
  /-- Only runs for such calls are told to stop, before the end. -/
  stopped : ∀ r ∈ (w.host s.opposite).endpoint.runs, ∀ id, r.request = some id →
    id.val.toNat ≤ (w.host s).endpoint.issued ∧
      ((w.host s.opposite).endpoint.isOpen = true → r.fired = true →
        id ∉ (w.host s).endpoint.waiting)
  /-- An answer to a call that waits has a source. -/
  replied : ∀ o ∈ w.road s.opposite, ∀ id, o.message.replies? = some id →
    id.val.toNat ≤ (w.host s).endpoint.issued ∧
      (id ∈ (w.host s).endpoint.waiting → Source limit (w.chronicle s.opposite) id o)
  /-- So does every answer that found its call waiting. -/
  heard : ∀ m ∈ (w.chronicle s).past, ∀ msg id, m.host.receives? m.act = some msg →
    msg.replies? = some id → id ∈ m.host.endpoint.waiting →
      ∃ o, Source limit (w.chronicle s.opposite) id o ∧ msg = o.message.received ∧
        o.bytes.length ≤ limit

variable {limit : Nat} {w w' : Wire η} {s : Side} {a : Act η}

/-- A message that arrives is the first on its road, and is read or passed over. -/
theorem Turn.arrival (h : Turn limit w w' s a) (hlimit : limit < 2 ^ 64)
    (hd : ∀ o ∈ w.road s.opposite, ∀ v ∈ o.message.payloads, v.depth ≤ Codec.maxDepth) :
    (w.host s).receives? a = none ∧ (w'.road s.opposite).Sublist (w.road s.opposite) ∨
      ∃ o, w.road s.opposite = o :: w'.road s.opposite ∧
        (w.host s).receives? a = some o.message.received ∧ o.bytes.length ≤ limit := by
  rcases h.inc with ⟨hno, hroad⟩ | ⟨o, hroad, rfl, hsize⟩
  · exact Or.inl ⟨hno, hroad ▸ List.Sublist.refl _⟩
  · have hsub : (w'.road s.opposite).Sublist (w.road s.opposite) := by
      rw [hroad]
      exact List.sublist_cons_self _ _
    cases hopen : (w.host s).endpoint.isOpen with
    | false => exact Or.inl ⟨by simp [Host.receives?, hopen], hsub⟩
    | true =>
        have ho : o ∈ w.road s.opposite := by
          rw [hroad]
          exact List.mem_cons_self
        rcases Outbound.receives?_bytes hopen (hd o ho) hsize hlimit with hr | ⟨-, hr⟩
        · exact Or.inr ⟨o, hroad, hr, hsize⟩
        · exact Or.inl ⟨hr, hsub⟩

/-- What has arrived is no longer on its road. -/
theorem Turn.count_arrival (h : Turn limit w w' s a) (hlimit : limit < 2 ^ 64)
    (hd : ∀ o ∈ w.road s.opposite, ∀ v ∈ o.message.payloads, v.depth ≤ Codec.maxDepth)
    (id : RequestId) :
    (w'.road s.opposite).countP (fun o => o.message.asks? = some id) +
        ((w.host s).receives? a).toList.countP (fun m => m.asks? = some id) ≤
      (w.road s.opposite).countP fun o => o.message.asks? = some id := by
  rcases h.arrival hlimit hd with ⟨hno, hsub⟩ | ⟨o, hroad, hyes, -⟩
  · rw [hno]
    exact hsub.countP_le
  · refine Nat.le_of_eq ?_
    rw [hroad, hyes, List.countP_cons, Option.toList_some, List.countP_singleton,
      Message.asks?_received]

/-- What is on the road of the other side after a turn was there before. -/
theorem Turn.mem_road_other (h : Turn limit w w' s a) {o : Outbound}
    (ho : o ∈ w'.road s.opposite) : o ∈ w.road s.opposite := by
  rcases h.mem_road ho with ho | ⟨hss, -⟩
  · exact ho
  · exact absurd hss (opposite_ne s)

/-- What arrives was on the road of the other side. -/
theorem Turn.sent_of_receives (h : Turn limit w w' s a) (hlimit : limit < 2 ^ 64)
    (hd : ∀ o ∈ w.road s.opposite, ∀ v ∈ o.message.payloads, v.depth ≤ Codec.maxDepth)
    {m : Message} (hm : (w.host s).receives? a = some m) :
    ∃ o ∈ w.road s.opposite, m = o.message.received ∧ o.bytes.length ≤ limit := by
  rcases h.arrival hlimit hd with ⟨hno, -⟩ | ⟨o, hold, hyes, hsize⟩
  · exact absurd (hno.symm.trans hm) nofun
  · refine ⟨o, ?_, Option.some.inj (hm.symm.trans hyes), hsize⟩
    rw [hold]
    exact List.mem_cons_self

/-! ## The caller's turn -/

/-- A call that waits and was known before has waited before. -/
theorem Turn.waited (h : Turn limit w w' s a) {id : RequestId}
    (hid : id.val.toNat ≤ (w.host s).endpoint.issued)
    (hw : id ∈ (w'.host s).endpoint.waiting) : id ∈ (w.host s).endpoint.waiting := by
  by_contra hgone
  rw [h.host_self] at hw
  exact Host.not_mem_waiting_step hid hgone a hw

/-- A call that is taken back was known, and waits no longer. -/
theorem Turn.withdrawn_self (h : Turn limit w w' s a) (hs : (w.host s).Sound)
    (ht : Traced limit w s) {o : Outbound} (ho : o ∈ w'.road s) {id : RequestId}
    (hcancel : o.message.withdraws? = some id) :
    id.val.toNat ≤ (w.host s).endpoint.issued ∧ id ∉ (w'.host s).endpoint.waiting := by
  rcases h.mem_road ho with ho | ⟨-, hq⟩
  · obtain ⟨hid, hgone⟩ := ht.withdrawn o ho id hcancel
    exact ⟨hid, fun hw => hgone (h.waited hid hw)⟩
  · -- the call that the cancel takes back waited until now
    obtain ⟨hwait, rfl⟩ := Host.waited_of_withdraws hq hcancel
    rw [h.host_self]
    exact ⟨hs.issued_of_waiting hwait, hs.left (.cancelled hq)⟩

/-- What arrives as an answer to a call that waits has a source. -/
theorem Turn.heard_self (h : Turn limit w w' s a) (hlimit : limit < 2 ^ 64)
    (hd : ∀ o ∈ w.road s.opposite, ∀ v ∈ o.message.payloads, v.depth ≤ Codec.maxDepth)
    (ht : Traced limit w s) {msg : Message} {id : RequestId}
    (hmsg : (w.host s).receives? a = some msg) (hreply : msg.replies? = some id)
    (hwait : id ∈ (w.host s).endpoint.waiting) :
    ∃ o, Source limit (w.chronicle s.opposite) id o ∧ msg = o.message.received ∧
      o.bytes.length ≤ limit := by
  obtain ⟨o, ho, rfl, hsize⟩ := h.sent_of_receives hlimit hd hmsg
  rw [Message.replies?_received] at hreply
  exact ⟨o, (ht.replied o ho id hreply).2 hwait, rfl, hsize⟩

/-- **The turn of a caller keeps track of its requests and their answers.** -/
theorem Turn.traced_self (h : Turn limit w w' s a) (hs : (w.host s).Sound)
    (hlimit : limit < 2 ^ 64)
    (hd : ∀ o ∈ w.road s.opposite, ∀ v ∈ o.message.payloads, v.depth ≤ Codec.maxDepth)
    (ht : Traced limit w s) : Traced limit w' s := by
  have hself := h.host_self
  have hissued : (w.host s).endpoint.issued ≤ (w'.host s).endpoint.issued := by
    rw [hself]
    exact (w.host s).issued_step a
  have hwishes : ∀ x ∈ (w.host s).calls.map Asked.wish, x ∈ (w'.host s).calls.map Asked.wish := by
    intro x hx
    rw [hself]
    exact ((w.host s).wishes_step a).subset hx
  have hout := fun id : RequestId => h.count_out fun m => m.asks? = some id
  refine { single := fun id => ?single, known := fun id hpos => ?known, wished := ?wished,
           arrived := ?arrived, withdrawn := ?withdrawn, stopped := ?stopped,
           replied := ?replied, heard := ?heard }
  case single =>
    have hnow := hout id
    have hone := ht.single id
    have hknown := ht.known id
    have hle := countP_toList_le_one (fun o => decide (o.message.asks? = some id))
      ((w.host s).queues? a)
    rw [h.other]
    by_cases hasked : 0 < ((w.host s).queues? a).toList.countP fun o => o.message.asks? = some id
    · have hlt := (Host.new_of_count_asks hasked).1
      omega
    · omega
  case known =>
    have hnow := hout id
    rw [h.other] at hpos
    by_cases hbefore : 0 < (w.road s).countP (fun o => o.message.asks? = some id) +
        arrivals (w.chronicle s.opposite) id
    · exact Nat.le_trans (ht.known id hbefore) hissued
    · have hasked : 0 < ((w.host s).queues? a).toList.countP fun o => o.message.asks? = some id := by
        omega
      rw [hself]
      exact (hs.step a).issued_of_waiting (Host.new_of_count_asks hasked).2
  case wished =>
    intro o ho id proxy method args hmessage
    rcases h.mem_road ho with ho | ⟨-, hq⟩
    · exact hwishes _ (ht.wished o ho id proxy method args hmessage)
    · have hasks : o.message.asks? = some id := by
        rw [hmessage]
        rfl
      obtain ⟨proxy', method', args', rfl⟩ := Host.eq_of_asks hq hasks
      obtain ⟨rfl, rfl, rfl⟩ := by simpa using hmessage
      rw [hself]
      exact (Host.waits_of_request hq).2.2
  case arrived =>
    intro m hm id proxy method args hmessage
    rw [h.other] at hm
    obtain ⟨args₀, hwish, hargs⟩ := ht.arrived m hm id proxy method args hmessage
    exact ⟨args₀, hwishes _ hwish, hargs⟩
  case withdrawn =>
    intro o ho id hcancel
    obtain ⟨hid, hgone⟩ := h.withdrawn_self hs ht ho hcancel
    exact ⟨Nat.le_trans hid hissued, hgone⟩
  case stopped =>
    intro r hr id hid
    rw [h.host_other] at hr ⊢
    obtain ⟨hle, hgone⟩ := ht.stopped r hr id hid
    exact ⟨Nat.le_trans hle hissued, fun hopen hfired hw => hgone hopen hfired (h.waited hle hw)⟩
  case replied =>
    intro o ho id hreply
    obtain ⟨hid, hsource⟩ := ht.replied o (h.mem_road_other ho) id hreply
    rw [h.other]
    exact ⟨Nat.le_trans hid hissued, fun hw => hsource (h.waited hid hw)⟩
  case heard =>
    intro m hm msg id hmsg hreply hwait
    rw [h.self, Chronicle.past_act] at hm
    rw [h.other]
    rcases List.mem_append.mp hm with hm | hm
    · exact ht.heard m hm msg id hmsg hreply hwait
    · obtain rfl := List.mem_singleton.mp hm
      exact h.heard_self hlimit hd ht hmsg hreply hwait

/-! ## The other side's turn -/

/-- Why an answer is sent to a call that waits. -/
theorem Turn.source (h : Turn limit w w' s a) (hmin : Codec.narrowest ≤ limit) (hlimit : limit < 2 ^ 64)
    (hd : ∀ o ∈ w.road s.opposite, ∀ v ∈ o.message.payloads, v.depth ≤ Codec.maxDepth)
    (hown : ∀ p ∈ (w.host s).concluded, p.2.isOwn = true) (ht : Traced limit w s.opposite)
    {o : Outbound} {id : RequestId} (hq : (w.host s).queues? a = some o)
    (hreply : o.message.replies? = some id) :
    id.val.toNat ≤ (w.host s.opposite).endpoint.issued ∧
      (id ∈ (w.host s.opposite).endpoint.waiting → Source limit (w'.chronicle s) id o) := by
  have hpast : ⟨w.host s, a⟩ ∈ (w'.chronicle s).past := by
    rw [h.self, Chronicle.past_act]
    exact List.mem_append_right _ List.mem_cons_self
  have hstopped := ht.stopped
  have hreplied := ht.replied
  have hknown := ht.known
  rw [Side.opposite_opposite] at hstopped hreplied
  cases Host.posting hq with
  | outcome id' r out message ends =>
      have hid : id' = id := by
        subst message
        rw [Outcome.replies?_message] at hreply
        exact Option.some.inj hreply
      subst hid
      obtain ⟨hle, hgone⟩ := hstopped r (List.mem_of_find?_eq_some ends.run) id' ends.request
      refine ⟨hle, fun hwait => .outcome _ hpast r out ends ?_⟩
      rcases Host.ending?_eq_some ends.ending with hmem | ⟨rfl, -⟩
      · exact hown _ hmem
      · -- a run is aborted only when its caller waits no longer
        exact absurd hwait (hgone (ends.isOpen hq) (Host.fired_of_aborted hown ends.ending))
  | miss id' proxy message misses =>
      have hid : id' = id := by
        subst message
        exact Option.some.inj hreply
      subst hid
      obtain ⟨method, args, hm⟩ := misses.receives
      have hcount := h.count_arrival hlimit hd id'
      have hpos : 0 < ((w.host s).receives? a).toList.countP fun m => m.asks? = some id' :=
        countP_toList_pos.mpr ⟨_, hm, decide_eq_true rfl⟩
      exact ⟨hknown id' (by omega), fun _ => .miss _ hpast proxy misses⟩
  | replacement o' err id' bounced answers message =>
      have hid : id' = id := by
        subst message
        exact Option.some.inj hreply
      subst hid
      rcases h.out with ⟨hno, -⟩ | ⟨o₁, xs, ys, hyes, hsize, hold, -⟩
      · rw [hno] at bounced
        cases bounced
      · obtain ⟨rfl, rfl⟩ := Prod.mk.inj (Option.some.inj (hyes.symm.trans bounced))
        have hmem : o₁ ∈ w.road s := by
          rw [hold]
          exact List.mem_append_right _ List.mem_cons_self
        obtain ⟨hle, hsource⟩ := hreplied o₁ hmem id' (Outbound.replies?_of_answers? answers)
        refine ⟨hle, fun hwait => ?_⟩
        rw [h.self]
        cases hsource hwait with
        | outcome m past r out ends own =>
            exact .substitute m (List.mem_append_left _ past) r out o₁ ends own hsize
              (congrArg Outbound.lastResort message) (congrArg Outbound.message message)
        | substitute m past r out o₂ ends own size last =>
            rw [Host.lastResort_of_answers answers] at last
            cases last
        | miss m past proxy misses =>
            have hshort := Codec.length_noSuchProxy id' proxy
            rw [← misses.message] at hshort
            exact absurd (Nat.lt_of_le_of_lt hmin hsize) (Nat.not_lt.mpr hshort)
  | _ => subst_vars; cases hreply

/-- A run is told to stop, before the end, only if its caller waits no longer. -/
theorem Turn.stopped_other (h : Turn limit w w' s a) (htidy : (w.host s).Tidy)
    (hlimit : limit < 2 ^ 64)
    (hd : ∀ o ∈ w.road s.opposite, ∀ v ∈ o.message.payloads, v.depth ≤ Codec.maxDepth)
    (hstop : ∀ serial, a ≠ .op (.stop serial)) (ht : Traced limit w s.opposite)
    {r : Run η} (hr : r ∈ (w'.host s).endpoint.runs) {id : RequestId}
    (hid : r.request = some id) :
    id.val.toNat ≤ (w.host s.opposite).endpoint.issued ∧
      ((w'.host s).endpoint.isOpen = true → r.fired = true →
        id ∉ (w.host s.opposite).endpoint.waiting) := by
  have hstopped := ht.stopped
  have hknown := ht.known
  rw [Side.opposite_opposite] at hstopped hknown
  rw [h.host_self, Host.mem_runs_step] at hr
  rw [h.host_self]
  rcases hr with ⟨r₀, hr₀, -, rfl⟩ | hstart
  · obtain ⟨hle, hgone⟩ := hstopped r₀ hr₀ id hid
    refine ⟨hle, fun hopen hfired => ?_⟩
    have hbefore := (w.host s).isOpen_of_step a hopen
    rcases Bool.or_eq_true_iff.mp hfired with hfired | htells
    · exact hgone hbefore hfired
    · -- it is told now: by a cancel, since no handler fires its own signal
      rcases htidy.told hr₀ htells with ⟨serial, rfl⟩ | hcloses | ⟨id', hm, hid'⟩
      · exact absurd rfl (hstop serial)
      · rw [Host.isOpen_of_closes hcloses] at hopen
        cases hopen
      · obtain rfl : id' = id := Option.some.inj (hid'.symm.trans hid)
        obtain ⟨o, ho, hmessage, -⟩ := h.sent_of_receives hlimit hd hm
        have hcancel : o.message.withdraws? = some id' := by
          rw [← Message.withdraws?_received, ← hmessage]
          rfl
        exact (ht.withdrawn o ho id' hcancel).2
  · -- a run that begins has not been told
    have hm := (Host.starts?_eq_some hstart).receives _ hid
    have hpos : 0 < ((w.host s).receives? a).toList.countP fun m => m.asks? = some id :=
      countP_toList_pos.mpr ⟨_, hm, decide_eq_true rfl⟩
    have hcount := h.count_arrival hlimit hd id
    refine ⟨hknown id (by omega), fun _ hfired => ?_⟩
    rw [(Host.starts?_eq_some hstart).fired] at hfired
    cases hfired

/-- **The turn of the other side keeps track of the requests of a caller and their answers.** -/
theorem Turn.traced_other (h : Turn limit w w' s a) (htidy : (w.host s).Tidy)
    (hmin : Codec.narrowest ≤ limit) (hlimit : limit < 2 ^ 64)
    (hd : ∀ o ∈ w.road s.opposite, ∀ v ∈ o.message.payloads, v.depth ≤ Codec.maxDepth)
    (hown : ∀ p ∈ (w.host s).concluded, p.2.isOwn = true)
    (hstop : ∀ serial, a ≠ .op (.stop serial)) (ht : Traced limit w s.opposite) :
    Traced limit w' s.opposite := by
  have hother := h.host_other
  have hcount := fun id => h.count_arrival hlimit hd id
  have harrivals : ∀ id, arrivals (w'.chronicle s) id = arrivals (w.chronicle s) id +
      ((w.host s).receives? a).toList.countP fun m => m.asks? = some id := by
    intro id
    rw [h.self]
    exact arrivals_act _ a id
  have hstopped {r : Run η} (hr : r ∈ (w'.host s).endpoint.runs) {id : RequestId}
      (hid : r.request = some id) := h.stopped_other htidy hlimit hd hstop ht hr hid
  have hsource {o : Outbound} {id : RequestId} (hq : (w.host s).queues? a = some o)
      (hreply : o.message.replies? = some id) := h.source hmin hlimit hd hown ht hq hreply
  obtain ⟨single, known, wished, arrived, withdrawn, -, replied, heard⟩ := ht
  rw [Side.opposite_opposite] at single known arrived replied heard
  refine { single := fun id => ?single, known := fun id hpos => ?known, wished := ?wished,
           arrived := ?arrived, withdrawn := ?withdrawn, stopped := ?stopped,
           replied := ?replied, heard := ?heard }
  case single =>
    have hone := single id
    have := hcount id
    rw [Side.opposite_opposite, harrivals]
    omega
  case known =>
    have := hcount id
    rw [Side.opposite_opposite, harrivals] at hpos
    rw [hother]
    exact known id (by omega)
  case wished =>
    rw [hother]
    exact fun o ho => wished o (h.mem_road_other ho)
  case arrived =>
    intro m hm id proxy method args hmessage
    rw [Side.opposite_opposite, h.self, Chronicle.past_act] at hm
    rw [hother]
    rcases List.mem_append.mp hm with hm | hm
    · exact arrived m hm id proxy method args hmessage
    · obtain rfl := List.mem_singleton.mp hm
      obtain ⟨o, ho, hreceived, -⟩ := h.sent_of_receives hlimit hd hmessage
      obtain ⟨args₀, hasked, rfl⟩ := Message.eq_request_of_received hreceived.symm
      exact ⟨args₀, wished o ho id proxy method args₀ hasked, rfl⟩
  case withdrawn =>
    rw [hother]
    exact fun o ho => withdrawn o (h.mem_road_other ho)
  case stopped =>
    rw [Side.opposite_opposite, hother]
    exact fun r hr id hid => hstopped hr hid
  case replied =>
    intro o ho id hreply
    rw [Side.opposite_opposite] at ho ⊢
    rw [hother]
    rcases h.mem_road ho with ho | ⟨-, hq⟩
    · obtain ⟨hle, hold⟩ := replied o ho id hreply
      refine ⟨hle, fun hwait => ?_⟩
      rw [h.self]
      exact (hold hwait).mono a
    · exact hsource hq hreply
  case heard =>
    intro m hm msg id hmsg hreply hwait
    rw [h.other] at hm
    obtain ⟨o, hold, hmessage, hsize⟩ := heard m hm msg id hmsg hreply hwait
    rw [Side.opposite_opposite, h.self]
    exact ⟨o, hold.mono a, hmessage, hsize⟩

/-! ## Every run -/

omit [Handler η] in
/-- Messages that are lost leave no trace. -/
theorem Loss.traced (h : Loss w w') (ht : Traced limit w s) : Traced limit w' s := by
  have hhost : ∀ s, w'.host s = w.host s := fun s => congrArg Chronicle.host (h.same s)
  have hcount : ∀ id, (w'.road s).countP (fun o => o.message.asks? = some id) ≤
      (w.road s).countP fun o => o.message.asks? = some id := fun id => (h.road s).countP_le
  refine { single := fun id => ?single, known := fun id hpos => ?known, wished := ?wished,
           arrived := ?arrived, withdrawn := ?withdrawn, stopped := ?stopped,
           replied := ?replied, heard := ?heard }
  case single =>
    have := ht.single id
    have := hcount id
    rw [h.same]
    omega
  case known =>
    have := hcount id
    rw [h.same] at hpos
    rw [hhost]
    exact ht.known id (by omega)
  case wished =>
    rw [hhost]
    exact fun o ho => ht.wished o ((h.road s).subset ho)
  case arrived =>
    rw [hhost, h.same]
    exact ht.arrived
  case withdrawn =>
    rw [hhost]
    exact fun o ho => ht.withdrawn o ((h.road s).subset ho)
  case stopped =>
    rw [hhost, hhost]
    exact ht.stopped
  case replied =>
    rw [hhost, h.same]
    exact fun o ho => ht.replied o ((h.road s.opposite).subset ho)
  case heard =>
    rw [h.same, h.same]
    exact ht.heard

/-- The past of an endpoint is a run of it. -/
theorem Reached.exists_run {ok : Op η → Prop} {c : Side → Config} (h : Reached limit ok c w)
    (s : Side) : ∃ acts, w.chronicle s = (Chronicle.ofConfig (c s)).run acts := by
  induction h with
  | start => exact ⟨[], rfl⟩
  | @step w w' h hstep ih =>
      obtain ⟨acts, hacts⟩ := ih
      rcases hstep.turn fun s => (h.kept s).1 with ⟨t, a, hturn, -⟩ | hloss
      · rcases eq_or_opposite t s with rfl | rfl
        · refine ⟨acts ++ [a], ?_⟩
          rw [hturn.self, hacts, Chronicle.run_concat]
        · exact ⟨acts, hturn.other.trans hacts⟩
      · exact ⟨acts, (hloss.same s).trans hacts⟩

/-- Handlers that have ended have done so by themselves. -/
theorem Reached.own {ok : Op η → Prop} {c : Side → Config} (h : Reached limit ok c w) (s : Side) :
    ∀ p ∈ (w.host s).concluded, p.2.isOwn = true := by
  obtain ⟨acts, hacts⟩ := h.exists_run s
  intro p hp
  rw [host, hacts] at hp
  exact ((Chronicle.concluded_run (c s) acts).1 p hp).1

/-- **Where requests and answers come from**, in every run in which no handler fires the signal of
its own call. -/
theorem Reached.traced {ok : Op η → Prop} {c : Side → Config} (h : Reached limit ok c w)
    (hok : ∀ o, ok o → ∀ serial, o ≠ .stop serial) (hmin : Codec.narrowest ≤ limit)
    (hlimit : limit < 2 ^ 64) (s : Side) : Traced limit w s := by
  induction h generalizing s with
  | start =>
      refine ⟨fun _ => Nat.zero_le 1, fun id hpos => absurd hpos (Nat.lt_irrefl 0), ?_, ?_, ?_, ?_,
        ?_, ?_⟩
      · exact fun _ ho => absurd ho List.not_mem_nil
      · exact fun _ hm => absurd hm List.not_mem_nil
      · exact fun _ ho => absurd ho List.not_mem_nil
      · exact fun _ hr => absurd hr List.not_mem_nil
      · exact fun _ ho => absurd ho List.not_mem_nil
      · exact fun _ hm => absurd hm List.not_mem_nil
  | @step w w' h hstep ih =>
      rcases hstep.turn fun s => (h.kept s).1 with ⟨t, a, hturn, hop⟩ | hloss
      · rcases eq_or_opposite t s with rfl | rfl
        · exact hturn.traced_self (h.kept _).1 hlimit (h.depth _) (ih _)
        · refine hturn.traced_other (h.kept _).2 hmin hlimit (h.depth _) (h.own _) ?_ (ih _)
          exact fun serial ha => hok _ (hop _ ha) serial rfl
      · exact hloss.traced (ih s)

end Wire

end PeerRpc
