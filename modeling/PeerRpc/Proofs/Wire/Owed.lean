import PeerRpc.Proofs.Host.Custody
import PeerRpc.Proofs.Wire.Legible

/-!
# PeerRpc.Proofs.Wire.Owed -- where the obligation of each call is

While both endpoints are open, the request of a call that waits is in exactly one place: on the way
to the other side, being worked on there, or answered with the answer on the way back
(`Wire.duty`). A caller that waits no longer has sent word: a cancel comes behind the request, or
the run has been told already. `Wire.Owed` puts both together; every turn keeps it, the caller's own
(`Wire.Turn.owed_self`) and the other side's (`Wire.Turn.owed_other`).
-/

namespace PeerRpc

variable {η : Type}

namespace Wire

/-- How often the request with this id of a side is on the way, being worked on, or answered with
the answer on the way. -/
def duty (w : Wire η) (s : Side) (id : RequestId) : Nat :=
  (w.road s).countP (fun o => o.message.asks? = some id) +
    (w.host s.opposite).endpoint.working id +
    (w.road s.opposite).countP fun o => o.message.replies? = some id

/-- Every request on a road belongs to a call in the list, or a cancel comes behind it. -/
def Heeded (calls : List RequestId) : List Outbound → Prop
  | [] => True
  | o :: rest =>
    (∀ id, o.message.asks? = some id →
      id ∈ calls ∨ ∃ o' ∈ rest, o'.message.withdraws? = some id) ∧ Heeded calls rest

/-- Where the obligations of the calls of a side are, and who has sent word. -/
structure Owed (w : Wire η) (s : Side) : Prop where
  single : ∀ id, w.duty s id ≤ 1
  known : ∀ id, 0 < w.duty s id → id.val.toNat ≤ (w.host s).endpoint.issued
  /-- The obligation of a call that waits is somewhere. -/
  held : ∀ id ∈ (w.host s).endpoint.waiting, 0 < w.duty s id
  /-- A cancel comes behind the request of a call that waits no longer. -/
  called : Heeded (w.host s).endpoint.waiting (w.road s)
  /-- A run for a call that waits no longer has been told so, or will be. -/
  heeded : ∀ r ∈ (w.host s.opposite).endpoint.runs, ∀ id, r.request = some id →
    id ∈ (w.host s).endpoint.waiting ∨ r.fired = true ∨
      ∃ o ∈ w.road s, o.message.withdraws? = some id

/-! ## Lists -/

theorem Heeded.erase {calls : List RequestId} {o : Outbound} {xs ys : List Outbound}
    (h : Heeded calls (xs ++ o :: ys)) (ho : o.message.withdraws? = none) :
    Heeded calls (xs ++ ys) := by
  induction xs with
  | nil => exact h.2
  | cons x xs ih =>
      refine ⟨fun id hid => (h.1 id hid).imp_right ?_, ih h.2⟩
      rintro ⟨o', ho', hw⟩
      rcases List.mem_append.mp ho' with ho' | ho'
      · exact ⟨o', List.mem_append_left _ ho', hw⟩
      · rcases List.mem_cons.mp ho' with rfl | ho'
        · rw [ho] at hw
          cases hw
        · exact ⟨o', List.mem_append_right _ ho', hw⟩

/-- A road on which more messages follow is heeded if those calls that have gone are taken back by
them. -/
theorem Heeded.append {calls calls' : List RequestId} {xs ys : List Outbound}
    (h : Heeded calls xs)
    (hleft : ∀ id ∈ calls, (∃ o ∈ xs, o.message.asks? = some id) →
      id ∈ calls' ∨ ∃ o ∈ ys, o.message.withdraws? = some id)
    (hnew : Heeded calls' ys) : Heeded calls' (xs ++ ys) := by
  induction xs with
  | nil => exact hnew
  | cons x xs ih =>
      refine ⟨fun id hid => ?_, ih h.2 fun id hid ⟨o, ho, hask⟩ =>
        hleft id hid ⟨o, List.mem_cons_of_mem _ ho, hask⟩⟩
      rcases h.1 id hid with hin | ⟨o, ho, hw⟩
      · refine (hleft id hin ⟨x, List.mem_cons_self, hid⟩).imp_right ?_
        rintro ⟨o, ho, hw⟩
        exact ⟨o, List.mem_append_right _ ho, hw⟩
      · exact Or.inr ⟨o, List.mem_append_left _ ho, hw⟩

theorem Heeded.of_toList {calls : List RequestId} {o? : Option Outbound}
    (h : ∀ o id, o? = some o → o.message.asks? = some id → id ∈ calls) :
    Heeded calls o?.toList := by
  cases o? with
  | none => trivial
  | some o => exact ⟨fun id hid => Or.inl (h o id rfl hid), trivial⟩

/-! ## A turn -/

/-- Either the first message of a road leaves it and is read, or none is. -/
def Reads (road road' : List Outbound) (m? : Option Message) : Prop :=
  m? = none ∧ road' = road ∨ ∃ o, road = o :: road' ∧ m? = some o.message.received

variable [Handler η] {limit : Nat} {w w' : Wire η} {s : Side} {a : Act η}

/-- A message that arrives is read. -/
theorem Turn.arrives (h : Turn limit w w' s a) (hlimit : limit < 2 ^ 64)
    (hopen : (w.host s).endpoint.isOpen = true) (hw : w.Legible)
    (hd : ∀ o ∈ w.road s.opposite, ∀ v ∈ o.message.payloads, v.depth ≤ Codec.maxDepth) :
    Reads (w.road s.opposite) (w'.road s.opposite) ((w.host s).receives? a) := by
  rcases h.inc with hno | ⟨o, hold, rfl, hsize⟩
  · exact Or.inl hno
  · have ho : o ∈ w.road s.opposite := by
      rw [hold]
      exact List.mem_cons_self
    rcases Outbound.receives?_bytes hopen (hd o ho) hsize hlimit with hr | ⟨hterse, -⟩
    · exact Or.inr ⟨o, hold, hr⟩
    · exact absurd (hw.fits _ o ho).terse hterse

omit [Handler η] in
theorem Reads.count {road road' : List Outbound} {m? : Option Message}
    (h : Reads road road' m?) (p : Message → Bool) (hp : ∀ m : Message, p m.received = p m) :
    road'.countP (fun o => p o.message) + m?.toList.countP p =
      road.countP fun o => p o.message := by
  rcases h with ⟨rfl, rfl⟩ | ⟨o, rfl, rfl⟩
  · rfl
  · rw [List.countP_cons, Option.toList_some, List.countP_singleton, hp]

/-- A message that is refused for its size is no last resort, nor a cancel. -/
theorem Turn.refused (h : Turn limit w w' s a) (hmin : Codec.narrowest ≤ limit)
    (hw : w.Legible) {o : Outbound} {err : TransportError}
    (hb : (w.host s).bounced? a = some (o, err)) :
    o.lastResort = false ∧ o.message.withdraws? = none := by
  rcases h.out with ⟨hno, -⟩ | ⟨o', xs, ys, hyes, hsize, hold, -⟩
  · rw [hno] at hb
    cases hb
  · rw [hyes] at hb
    obtain ⟨rfl, -⟩ := Prod.mk.inj (Option.some.inj hb)
    have ho : o' ∈ w.road s := by
      rw [hold]
      exact List.mem_append_right _ List.mem_cons_self
    refine ⟨Bool.eq_false_iff.mpr fun hlast => ?_, ?_⟩
    · have := (hw.fits s o' ho).last hlast
      omega
    · cases hm : o'.message with
      | cancel id =>
          have hlen := Codec.length_cancel id
          rw [Outbound.bytes, hm] at hsize
          omega
      | _ => rfl

/-- A cancel stays on its road while the other side does not act. -/
theorem Turn.mem_road_of_cancel (h : Turn limit w w' s a) (hmin : Codec.narrowest ≤ limit)
    (hw : w.Legible) {o : Outbound} {id : RequestId} (ho : o ∈ w.road s)
    (hcancel : o.message.withdraws? = some id) : o ∈ w'.road s := by
  rcases h.out with ⟨-, hroad⟩ | ⟨o', xs, ys, hb, -, hold, hroad⟩
  · rw [hroad]
    exact List.mem_append_left _ ho
  · rw [hroad]
    refine List.mem_append_left _ ?_
    rw [hold] at ho
    rcases List.mem_append.mp ho with ho | ho
    · exact List.mem_append_left _ ho
    · rcases List.mem_cons.mp ho with rfl | ho
      · rw [(h.refused hmin hw hb).2] at hcancel
        cases hcancel
      · exact List.mem_append_right _ ho

/-! ## The caller's turn -/

/-- What the turn of a caller makes of its obligations. -/
theorem Turn.duty_self (h : Turn limit w w' s a)
    (harr : Reads (w.road s.opposite) (w'.road s.opposite) ((w.host s).receives? a)) (id : RequestId) :
    w'.duty s id + ((w.host s).bounced? a).toList.countP (fun x => x.1.message.asks? = some id) +
        ((w.host s).receives? a).toList.countP (fun m => m.replies? = some id) =
      w.duty s id + ((w.host s).queues? a).toList.countP fun o => o.message.asks? = some id := by
  have hout := h.count_out fun m => m.asks? = some id
  have hinc := harr.count (fun m => m.replies? = some id) fun m => by simp
  unfold duty
  rw [h.host_other]
  omega

/-- A call whose obligation is still somewhere stops waiting only because it is taken back. -/
theorem Turn.cancels (h : Turn limit w w' s a) (hs : (w.host s).Sound)
    (hopen : (w'.host s).endpoint.isOpen = true)
    (harr : Reads (w.road s.opposite) (w'.road s.opposite) ((w.host s).receives? a))
    (ho : w.Owed s) {id : RequestId} (hwait : id ∈ (w.host s).endpoint.waiting)
    (hgone : id ∉ (w'.host s).endpoint.waiting)
    (hpos : 0 < (w'.road s).countP (fun o => o.message.asks? = some id) +
      (w.host s.opposite).endpoint.working id) :
    (w.host s).queues? a = some { message := .cancel id } := by
  rw [h.host_self] at hgone hopen
  have hone := ho.single id
  have hout := h.count_out fun m => m.asks? = some id
  have hinc := harr.count (fun m => m.replies? = some id) fun m => by simp
  have hold : ((w.host s).queues? a).toList.countP (fun o => o.message.asks? = some id) = 0 := by
    refine Nat.eq_zero_of_not_pos fun hpos => ?_
    have hlt := (Host.new_of_count_asks hpos).1
    have hle := hs.issued_of_waiting hwait
    omega
  unfold duty at hone
  cases hs.leaves hwait hgone with
  | cancelled queues => exact queues
  | closed closes =>
      rw [Host.isOpen_of_closes closes] at hopen
      cases hopen
  | answered m reply receives answers =>
      -- its answer was the obligation, and there is no second one
      have hreply : 0 < ((w.host s).receives? a).toList.countP fun m => m.replies? = some id :=
        countP_toList_pos.mpr
          ⟨m, receives, decide_eq_true (Message.replies?_eq_some.mpr ⟨_, answers⟩)⟩
      omega
  | refused o err bounced request =>
      have hask : 0 < ((w.host s).bounced? a).toList.countP fun x => x.1.message.asks? = some id :=
        countP_toList_pos.mpr ⟨_, bounced, decide_eq_true (Message.isRequest_eq_true.mp request)⟩
      omega

/-- A cancel comes behind each request whose call stops waiting. -/
theorem Turn.called_self (h : Turn limit w w' s a) (hmin : Codec.narrowest ≤ limit)
    (hw : w.Legible) (ho : w.Owed s)
    (hcancels : ∀ id ∈ (w.host s).endpoint.waiting, id ∉ (w'.host s).endpoint.waiting →
      0 < (w'.road s).countP (fun o => o.message.asks? = some id) →
        (w.host s).queues? a = some { message := .cancel id }) :
    Heeded (w'.host s).endpoint.waiting (w'.road s) := by
  -- what stays of the road is heeded as before
  obtain ⟨road, hroad, hheeded⟩ : ∃ road,
      w'.road s = road ++ ((w.host s).queues? a).toList ∧
        Heeded (w.host s).endpoint.waiting road := by
    rcases h.out with ⟨-, hroad⟩ | ⟨o, xs, ys, hb, -, hold, hroad⟩
    · exact ⟨_, hroad, ho.called⟩
    · exact ⟨_, hroad, (hold ▸ ho.called).erase (h.refused hmin hw hb).2⟩
  rw [hroad]
  refine hheeded.append ?_ (.of_toList fun o id hq hask => ?_)
  · rintro id hwait ⟨o, hmem, hask⟩
    by_cases hgone : id ∈ (w'.host s).endpoint.waiting
    · exact Or.inl hgone
    · refine Or.inr ⟨_, Option.mem_toList.mpr (hcancels id hwait hgone ?_), rfl⟩
      rw [hroad, List.countP_pos_iff]
      exact ⟨o, List.mem_append_left _ hmem, decide_eq_true hask⟩
  · rw [h.host_self]
    exact (Host.new_of_asks hq hask).2

/-- **The turn of a caller keeps its obligations in their places.** -/
theorem Turn.owed_self (h : Turn limit w w' s a) (hs : (w.host s).Sound)
    (hs' : (w'.host s).Sound) (hup : w.Up) (hup' : w'.Up) (hmin : Codec.narrowest ≤ limit)
    (hlimit : limit < 2 ^ 64) (hw : w.Legible)
    (hd : ∀ o ∈ w.road s.opposite, ∀ v ∈ o.message.payloads, v.depth ≤ Codec.maxDepth)
    (ho : w.Owed s) : w'.Owed s := by
  have hself := h.host_self
  have harr := h.arrives hlimit (hup s) hw hd
  have hduty := h.duty_self harr
  have hcancels := fun id (hwait : id ∈ (w.host s).endpoint.waiting) =>
    h.cancels hs (hup' s) harr ho hwait
  refine { single := fun id => ?single, known := fun id hpos => ?known,
           held := fun id hwait => ?held, called := ?called, heeded := ?heeded }
  case single =>
    have hle := countP_toList_le_one (fun o => decide (o.message.asks? = some id))
      ((w.host s).queues? a)
    have hone := ho.single id
    have hknown := ho.known id
    have heq := hduty id
    by_cases hpos : 0 < ((w.host s).queues? a).toList.countP fun o => o.message.asks? = some id
    · have hlt := (Host.new_of_count_asks hpos).1
      omega
    · omega
  case known =>
    have heq := hduty id
    by_cases hnow : 0 < w.duty s id
    · rw [hself]
      exact Nat.le_trans (ho.known id hnow) ((w.host s).issued_step a)
    · have hasked : 0 < ((w.host s).queues? a).toList.countP fun o => o.message.asks? = some id := by
        omega
      refine hs'.issued_of_waiting ?_
      rw [hself]
      exact (Host.new_of_count_asks hasked).2
  case held =>
    have heq := hduty id
    rw [hself] at hwait
    obtain ⟨hb, hr⟩ := hs.unended hwait
    by_cases hold : id ∈ (w.host s).endpoint.waiting
    · have := ho.held id hold
      omega
    · obtain ⟨proxy, method, args, hq⟩ := Host.joins hold hwait
      have hpos : 0 < ((w.host s).queues? a).toList.countP fun o => o.message.asks? = some id :=
        countP_toList_pos.mpr ⟨_, hq, decide_eq_true rfl⟩
      omega
  case called =>
    exact h.called_self hmin hw ho fun id hwait hgone hpos =>
      hcancels id hwait hgone (Nat.add_pos_left hpos _)
  case heeded =>
    intro r hr id hid
    rw [h.host_other] at hr
    rcases ho.heeded r hr id hid with hwait | hfired | ⟨o, hmem, hcancel⟩
    · by_cases hgone : id ∈ (w'.host s).endpoint.waiting
      · exact Or.inl hgone
      · have hpos : 0 < (w.host s.opposite).endpoint.working id := by
          unfold Endpoint.working
          rw [List.countP_pos_iff]
          exact ⟨r, hr, decide_eq_true hid⟩
        have hq := hcancels id hwait hgone (Nat.add_pos_right _ hpos)
        exact Or.inr (Or.inr ⟨_, h.mem_road_of_queues hq, rfl⟩)
    · exact Or.inr (Or.inl hfired)
    · exact Or.inr (Or.inr ⟨o, h.mem_road_of_cancel hmin hw hmem hcancel, hcancel⟩)

/-! ## The other side's turn -/

/-- The turn of the other side moves obligations and neither makes nor loses one. -/
theorem Turn.duty_other (h : Turn limit w w' s a) (hs : (w.host s).Sound) (ht : (w.host s).Tidy)
    (hup : w.Up) (hmin : Codec.narrowest ≤ limit) (hw : w.Legible)
    (harr : Reads (w.road s.opposite) (w'.road s.opposite) ((w.host s).receives? a)) (id : RequestId)
    (hone : w.duty s.opposite id ≤ 1) : w'.duty s.opposite id = w.duty s.opposite id := by
  have hself := h.host_self
  have hout := h.count_out fun m => m.replies? = some id
  have hinc := harr.count (fun m => m.asks? = some id) fun m => by simp
  have hbounced : ((w.host s).bounced? a).toList.countP (fun x => x.1.answers? = some id) =
      ((w.host s).bounced? a).toList.countP fun x => x.1.message.replies? = some id := by
    refine List.countP_congr fun x hx => ?_
    have hx' : (w.host s).bounced? a = some (x.1, x.2) := Option.mem_toList.mp hx
    have hlast := (h.refused hmin hw hx').1
    rw [Outbound.answers?_eq hlast]
  unfold duty at hone ⊢
  rw [Side.opposite_opposite] at hone ⊢
  have hone' : ((w.host s).receives? a).toList.countP (fun m => m.asks? = some id) +
      (w.host s).endpoint.working id ≤ 1 := by
    omega
  have hcustody := ht.custody hs (hup s) hone'
  rw [← hself] at hcustody
  omega

/-- **The turn of the other side keeps the obligations of a caller in their places.** -/
theorem Turn.owed_other (h : Turn limit w w' s a) (hs : (w.host s).Sound) (ht : (w.host s).Tidy)
    (hup : w.Up) (hmin : Codec.narrowest ≤ limit)
    (hlimit : limit < 2 ^ 64) (hw : w.Legible)
    (hd : ∀ o ∈ w.road s.opposite, ∀ v ∈ o.message.payloads, v.depth ≤ Codec.maxDepth)
    (ho : w.Owed s.opposite) : w'.Owed s.opposite := by
  have hself := h.host_self
  have hother := h.host_other
  have harr := h.arrives hlimit (hup s) hw hd
  have hduty := fun id => h.duty_other hs ht hup hmin hw harr id (ho.single id)
  refine ⟨fun id => ?_, fun id hpos => ?_, fun id hwait => ?_, ?_, ?_⟩
  · rw [hduty]
    exact ho.single id
  · rw [hduty] at hpos
    rw [hother]
    exact ho.known id hpos
  · rw [hother] at hwait
    rw [hduty]
    exact ho.held id hwait
  · rw [hother]
    rcases harr with ⟨-, hroad⟩ | ⟨o, hroad, -⟩
    · rw [hroad]
      exact ho.called
    · exact (hroad ▸ ho.called : Heeded _ (o :: _)).2
  · intro r hr id hid
    have hheeded := ho.heeded
    rw [Side.opposite_opposite] at hr hheeded
    rw [hself, Host.mem_runs_step] at hr
    rw [hother]
    rcases hr with ⟨r₀, hr₀, -, rfl⟩ | hstart
    · -- a run that goes on has been told, or hears of the cancel now
      rcases hheeded r₀ hr₀ id hid with hwait | hfired | ⟨o, hmem, hcancel⟩
      · exact Or.inl hwait
      · exact Or.inr (Or.inl (by simp [Run.tell, hfired]))
      · rcases harr with ⟨-, hroad⟩ | ⟨o', hroad, hm⟩
        · exact Or.inr (Or.inr ⟨o, hroad ▸ hmem, hcancel⟩)
        · rw [hroad] at hmem
          rcases List.mem_cons.mp hmem with rfl | hmem
          · rw [Message.eq_cancel_of_withdraws hcancel] at hm
            have htells := ht.tells_of_cancel hr₀ hid hm
            exact Or.inr (Or.inl (by simp [Run.tell, htells]))
          · exact Or.inr (Or.inr ⟨o, hmem, hcancel⟩)
    · -- a run begins with a request, and behind that comes the cancel
      have hm := (Host.starts?_eq_some hstart).receives _ hid
      rcases harr with ⟨hno, -⟩ | ⟨o, hroad, hyes⟩
      · rw [hno] at hm
        cases hm
      · have hask : o.message.asks? = some id := by
          rw [← Message.asks?_received, Option.some.inj (hyes.symm.trans hm)]
          rfl
        exact ((hroad ▸ ho.called : Heeded _ (o :: _)).1 id hask).imp_right Or.inr

/-! ## Every run -/

/-- **Where the obligations are.** While both endpoints are open nothing of what is owed to a caller
is lost. -/
theorem Reached.owed {c : Side → Config} (h : Reached limit Op.Plain c w)
    (hmin : Codec.narrowest ≤ limit) (hlimit : limit < 2 ^ 64) (hup : w.Up) (s : Side) :
    w.Owed s := by
  induction h generalizing s with
  | start =>
      have hno : ∀ id, (ofConfigs c : Wire η).duty s id = 0 := fun _ => rfl
      refine ⟨fun id => ?_, fun id hpos => ?_, fun id hid => ?_, trivial, fun r hr => ?_⟩
      · rw [hno]
        exact Nat.zero_le 1
      · rw [hno] at hpos
        cases hpos
      · exact absurd hid List.not_mem_nil
      · exact absurd hr List.not_mem_nil
  | @step w w' h hstep ih =>
      have hkept := fun s => h.kept s
      have hw := h.legible hlimit
      rcases hstep.turn fun s => (hkept s).1 with ⟨t, a, hturn, -⟩ | hloss
      · have hbefore : w.Up := by
          intro s'
          have hopen := hup s'
          rcases eq_or_opposite t s' with rfl | rfl
          · rw [host, hturn.self] at hopen
            exact Host.isOpen_of_step _ a hopen
          · rwa [host, hturn.other] at hopen
        rcases eq_or_opposite t s with rfl | rfl
        · exact hturn.owed_self (hkept _).1 ((h.step hstep).kept _).1 hbefore hup hmin hlimit hw
            (h.depth _) (ih hbefore _)
        · exact hturn.owed_other (hkept _).1 (hkept _).2 hbefore hmin hlimit hw
            (h.depth _) (ih hbefore _)
      · -- nothing is lost before an endpoint closes
        refine absurd (fun s' => ?_) hloss.down
        have hopen := hup s'
        rwa [host, hloss.same] at hopen

end Wire

end PeerRpc
