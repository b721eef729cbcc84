import PeerRpc.Proofs.Wire.Traced

/-!
# PeerRpc.Proofs.Wire.Recalled -- where cancels come from and where they lead

A run is told to stop, as long as its endpoint is open, only after the caller has taken back the very
call that it works on (`Chronicle.TookBack`): both sides count their requests from one, a cancel
carries nothing but such a number, and notifications have none. An answer that says that its handler
was aborted is queued by such a run only, so it comes too late for its call, and is passed over.

`Wire.Recalled` is the invariant. It follows a cancel from the call to the queue, to the run and
back as an answer. The caller's turn keeps it (`Wire.Turn.recalled_self`), the other side's turn does
(`Wire.Turn.recalled_other`), unless handlers fire the signals of their own calls, and so do messages
that are lost (`Wire.Loss.recalled`). It does not matter which endpoint closes first: a run that an
endpoint stops when it closes has no way to answer.
-/

namespace PeerRpc

variable {η : Type}

/-- Whether it is the caller who ends the call. -/
def Cause.isWithdrawal : Cause → Bool
  | cancelled | timedOut _ | dropped => true
  | _ => false

theorem Cause.result_of_isWithdrawal {z : Cause} (hz : z.isWithdrawal = true) (proxy : ProxyId) :
    z.result proxy = .error .cancelled ∨ ∃ d, z.result proxy = .error (.timeout d) := by
  cases z with
  | cancelled => exact Or.inl rfl
  | timedOut d => exact Or.inr ⟨d, rfl⟩
  | dropped => exact Or.inl rfl
  | _ => cases hz

/-! ## Answers of handlers that were aborted -/

/-- The request whose handler was aborted, as a message says. -/
def Message.aborts? : Message → Option RequestId
  | replyErr id err => if err.code = .cancelled then some id else none
  | _ => none

namespace Message

@[simp] theorem aborts?_received (m : Message) : m.received.aborts? = m.aborts? := by
  cases m <;> rfl

end Message

theorem Message.eq_replyErr_of_answers {m : Message} {id : RequestId} {err : RemoteError}
    (h : m.answers? (some id) = some (.error err)) : m = .replyErr id err := by
  cases m with
  | reply id' v =>
      obtain ⟨-, heq⟩ := Option.ite_none_right_eq_some.mp h
      cases heq
  | replyErr id' err' =>
      obtain ⟨hid, heq⟩ := Option.ite_none_right_eq_some.mp h
      obtain rfl := Option.some.inj hid
      obtain rfl := Except.error.inj (Option.some.inj heq)
      rfl
  | _ => cases h

theorem HandlerError.code_toRemote (e : HandlerError) : e.toRemote.code ≠ .cancelled := by
  cases e <;> exact nofun

/-- Only the outcome of a run that was aborted says so. -/
theorem Outcome.eq_aborted_of_aborts {out : Outcome} {id id' : RequestId}
    (h : (out.message id).aborts? = some id') : out = .aborted ∧ id' = id := by
  have hdeep : (Message.replyErr id Endpoint.tooDeep).aborts? ≠ some id' := nofun
  cases out with
  | value v =>
      simp only [message] at h
      split at h
      · cases h
      · exact absurd h hdeep
  | failed e =>
      simp only [message] at h
      split at h
      · have hcode := (Option.ite_none_right_eq_some.mp h).1
        exact absurd hcode e.code_toRemote
      · exact absurd h hdeep
  | panicked message => cases h
  | aborted => exact ⟨rfl, (Option.some.inj h).symm⟩

namespace Host

variable [Handler η]

/-- An answer that says so is queued for a run that was aborted, before the end. -/
theorem ends_of_aborts {h : Host η} {a : Act η} {o : Outbound} {id : RequestId}
    (hq : h.queues? a = some o) (ho : o.message.aborts? = some id) :
    ∃ r, h.Ends a id o r .aborted ∧ h.endpoint.isOpen = true := by
  cases posting hq with
  | outcome id' r out message ends =>
      rw [message] at ho
      obtain ⟨rfl, rfl⟩ := Outcome.eq_aborted_of_aborts ho
      exact ⟨r, ends, ends.isOpen hq⟩
  | _ => subst_vars; cases ho

omit [Handler η] in
/-- What a caller does with a call ends it as a withdrawal, unless the endpoint is closed. -/
theorem withdrawal_of_cause {h : Host η} {k : Nat} {q : Asked} {op : Op η} {z : Cause}
    (hz : q.cause? h k (.op op) = some z) (hop : op ≠ .close) : z.isWithdrawal = true := by
  cases Asked.endedBy hz with
  | closed => exact absurd rfl hop
  | _ => rfl

/-- A cancel is queued when the caller takes back a call that waits. -/
theorem withdrawal_of_queues {h : Host η} {a : Act η} {o : Outbound} {id : RequestId}
    (hq : h.queues? a = some o) (ho : o.message.withdraws? = some id) :
    id ∈ h.endpoint.waiting ∧ ∃ (k : Nat) (q : Asked) (z : Cause), h.calls[k]? = some q ∧
      q.call.id = some id ∧ q.cause? h k a = some z ∧ z.isWithdrawal = true := by
  cases posting hq with
  | cancel k q id' message call named waits cause op =>
      subst message
      obtain rfl : id' = id := Option.some.inj ho
      obtain ⟨z, hz⟩ := Option.isSome_iff_exists.mp cause
      obtain ⟨op, rfl⟩ := op
      refine ⟨waits, k, q, z, call, named, hz, withdrawal_of_cause hz ?_⟩
      -- an endpoint that closes tells nobody
      rintro rfl
      cases hq
  | outcome id' r out message =>
      subst message
      exact absurd ho (by simp)
  | _ => subst_vars; cases ho

/-- An answer to a call that does not wait is passed over. -/
theorem step_of_late {h : Host η} {a : Act η} {m : Message} {id : RequestId}
    (hm : h.receives? a = some m) (hreply : m.replies? = some id)
    (hgone : id ∉ h.endpoint.waiting) : h.step a = (h, []) := by
  obtain ⟨hopen, frame, rfl, hdecode⟩ := receives?_eq_some hm
  have hnone : h.endpoint.pending.find? (fun p => p.1 = id) = none := by
    rw [← Endpoint.find?_pending_isSome, Option.not_isSome_iff_eq_none] at hgone
    exact hgone
  have hsettle (result : ProxyId → CallResult) :
      h.endpoint.settle id result = (h.endpoint, []) := by
    simp only [Endpoint.settle, hnone]
  have hreceive : h.endpoint.receive frame = (h.endpoint, []) := by
    simp only [Endpoint.receive, hopen, if_true, hdecode]
    cases m with
    | reply id' v =>
        obtain rfl := Option.some.inj hreply
        exact hsettle _
    | replyErr id' err =>
        obtain rfl := Option.some.inj hreply
        exact hsettle _
    | _ => cases hreply
  show h.follow (h.endpoint.receive frame) = (h, [])
  rw [hreceive]
  show ({ h with calls := h.calls.map (Asked.hear []) }, []) = (h, [])
  have hcalls : h.calls.map (Asked.hear ([] : List (Event η))) = h.calls := List.map_id' _
  rw [hcalls]

end Host

/-! ## Calls that the caller takes back -/

namespace Chronicle

variable [Handler η]

/-- The caller has cancelled the call with this id, let go of it or found it late, and nothing else
has ended it before. -/
def TookBack (x : Chronicle η) (id : RequestId) : Prop :=
  ∃ (k : Nat) (q : Asked) (z : Cause), x.host.calls[k]? = some q ∧ q.call.id = some id ∧
    x.past.findSome? (·.cause? k) = some z ∧ z.isWithdrawal = true

variable {x : Chronicle η} {id : RequestId}

/-- A call that was taken back stays so. -/
theorem TookBack.act (h : x.TookBack id) (hx : x.host.Sound) (a : Act η) :
    (x.act a).TookBack id := by
  obtain ⟨k, q, z, hq, hid, hfirst, hz⟩ := h
  obtain ⟨q', hq', hacc, -⟩ := hx.call_step hq a
  refine ⟨k, q', z, hq', (congrArg Account.id hacc).trans hid, ?_, hz⟩
  rw [findSome?_act, hfirst]
  rfl

/-- It has the result that the caller gave it. -/
theorem TookBack.settled (h : x.TookBack id) (hx : x.Kept) :
    ∃ q ∈ x.host.calls, q.call.id = some id ∧
      (q.call.delivered = some (.error .cancelled) ∨
        ∃ d, q.call.delivered = some (.error (.timeout d))) := by
  obtain ⟨k, q, z, hq, hid, hfirst, hz⟩ := h
  have hd := hx.first k q hq
  rw [hfirst, Option.map_some] at hd
  refine ⟨q, List.mem_of_getElem? hq, hid, ?_⟩
  rcases z.result_of_isWithdrawal hz q.proxy with hr | ⟨d, hr⟩
  · exact Or.inl (hd.trans (congrArg some hr))
  · exact Or.inr ⟨d, hd.trans (congrArg some hr)⟩

/-- It does not wait. -/
theorem TookBack.not_mem_waiting (h : x.TookBack id) (hx : x.Kept) :
    id ∉ x.host.endpoint.waiting := by
  obtain ⟨q, hq, hid, hd⟩ := h.settled hx
  rw [hx.sound.mem_waiting_iff hq hid]
  rcases hd with hd | ⟨d, hd⟩
  · rw [hd]
    exact nofun
  · rw [hd]
    exact nofun

/-- A cancel is queued with the withdrawal of the call. -/
theorem Kept.tookBack_act (hx : x.Kept) {a : Act η} {o : Outbound}
    (hq : x.host.queues? a = some o) (ho : o.message.withdraws? = some id) :
    (x.act a).TookBack id := by
  obtain ⟨hwait, k, q, z, hcall, hid, hz, hw⟩ := Host.withdrawal_of_queues hq ho
  obtain ⟨q', hq', hacc, -⟩ := hx.sound.call_step hcall a
  have hd := (hx.sound.mem_waiting_iff (List.mem_of_getElem? hcall) hid).mp hwait
  have hbefore : x.past.findSome? (·.cause? k) = none := by
    rw [← Option.map_eq_none_iff, ← hx.first k q hcall]
    exact hd
  refine ⟨k, q', z, hq', (congrArg Account.id hacc).trans hid, ?_, hw⟩
  rw [findSome?_act, hbefore, Option.none_or]
  simp only [Moment.cause?, hcall]
  exact hz

end Chronicle

/-! ## The invariant -/

namespace Wire

variable [Handler η]

/-- Where the cancels of a side come from and where they lead. -/
structure Recalled (w : Wire η) (s : Side) : Prop where
  /-- A cancel takes back a call of its sender. -/
  sent : ∀ o ∈ w.road s, ∀ id, o.message.withdraws? = some id → (w.chronicle s).TookBack id
  /-- Before the end, only runs for such calls have been told to stop. -/
  stopped : (w.host s.opposite).endpoint.isOpen = true →
    ∀ r ∈ (w.host s.opposite).endpoint.runs, r.fired = true →
      ∃ id, r.request = some id ∧ (w.chronicle s).TookBack id
  /-- A run is told by a cancel for its own request, or with the end. -/
  aimed : ∀ m ∈ (w.chronicle s.opposite).past, ∀ r ∈ m.host.endpoint.runs,
    m.host.tells m.act r = true → m.host.closes m.act = true ∨
      ∃ id, m.host.receives? m.act = some (.cancel id) ∧ r.request = some id ∧
        (w.chronicle s).TookBack id
  /-- Only such calls are answered by handlers that were aborted. -/
  aborted : ∀ o ∈ w.road s.opposite, ∀ id, o.message.aborts? = some id →
    (w.chronicle s).TookBack id
  /-- And these answers come too late. -/
  heard : ∀ before m after, (w.chronicle s).past = before ++ m :: after → ∀ msg id,
    m.host.receives? m.act = some msg → msg.aborts? = some id →
      Chronicle.TookBack ⟨m.host, before⟩ id

variable {limit : Nat} {w w' : Wire η} {s : Side} {a : Act η}

/-- **The turn of a caller keeps track of its cancels.** -/
theorem Turn.recalled_self (h : Turn limit w w' s a) (hx : (w.chronicle s).Kept)
    (hlimit : limit < 2 ^ 64)
    (hd : ∀ o ∈ w.road s.opposite, ∀ v ∈ o.message.payloads, v.depth ≤ Codec.maxDepth)
    (hr : Recalled w s) : Recalled w' s := by
  have hkeep {id : RequestId} (ht : (w.chronicle s).TookBack id) :
      (w'.chronicle s).TookBack id := by
    rw [h.self]
    exact ht.act hx.sound a
  refine { sent := ?sent, stopped := ?stopped, aimed := ?aimed, aborted := ?aborted,
           heard := ?heard }
  case sent =>
    intro o ho id hcancel
    rcases h.mem_road ho with ho | ⟨-, hq⟩
    · exact hkeep (hr.sent o ho id hcancel)
    · rw [h.self]
      exact hx.tookBack_act hq hcancel
  case stopped =>
    intro hopen r hrun hfired
    rw [h.host_other] at hopen hrun
    obtain ⟨id, hid, ht⟩ := hr.stopped hopen r hrun hfired
    exact ⟨id, hid, hkeep ht⟩
  case aimed =>
    intro m hm r hrun htells
    rw [h.other] at hm
    rcases hr.aimed m hm r hrun htells with hcloses | ⟨id, hcancel, hid, ht⟩
    · exact Or.inl hcloses
    · exact Or.inr ⟨id, hcancel, hid, hkeep ht⟩
  case aborted =>
    intro o ho id habort
    exact hkeep (hr.aborted o (h.mem_road_other ho) id habort)
  case heard =>
    intro before m after hpast msg id hmsg habort
    rw [h.self, Chronicle.past_act] at hpast
    rcases List.eq_nil_or_concat after with rfl | ⟨after, m', rfl⟩
    · -- what arrives now was on the road before
      obtain ⟨hbefore, hlast⟩ := List.append_inj' hpast rfl
      obtain rfl := List.singleton_inj.mp hlast
      subst hbefore
      obtain ⟨o, ho, rfl, -⟩ := h.sent_of_receives hlimit hd hmsg
      rw [Message.aborts?_received] at habort
      exact hr.aborted o ho id habort
    · have hold : (w.chronicle s).past ++ [⟨(w.chronicle s).host, a⟩] =
          (before ++ m :: after) ++ [m'] := by
        rw [hpast]
        simp
      exact hr.heard before m after (List.append_inj' hold rfl).1 msg id hmsg habort

/-- Who is told to stop by a turn, unless handlers fire the signals of their own calls. -/
theorem Turn.aimed_other (h : Turn limit w w' s a) (htidy : (w.host s).Tidy)
    (hlimit : limit < 2 ^ 64)
    (hd : ∀ o ∈ w.road s.opposite, ∀ v ∈ o.message.payloads, v.depth ≤ Codec.maxDepth)
    (hstop : ∀ serial, a ≠ .op (.stop serial)) (hr : Recalled w s.opposite)
    {r : Run η} (hrun : r ∈ (w.host s).endpoint.runs) (htells : (w.host s).tells a r = true) :
    (w.host s).closes a = true ∨
      ∃ id, (w.host s).receives? a = some (.cancel id) ∧ r.request = some id ∧
        (w.chronicle s.opposite).TookBack id := by
  rcases htidy.told hrun htells with ⟨serial, rfl⟩ | hcloses | ⟨id, hm, hid⟩
  · exact absurd rfl (hstop serial)
  · exact Or.inl hcloses
  · obtain ⟨o, ho, hmessage, -⟩ := h.sent_of_receives hlimit hd hm
    have hcancel : o.message.withdraws? = some id := by
      rw [← Message.withdraws?_received, ← hmessage]
      rfl
    exact Or.inr ⟨id, hm, hid, hr.sent o ho id hcancel⟩

/-- **The turn of the other side keeps track of the cancels of a caller.** -/
theorem Turn.recalled_other (h : Turn limit w w' s a) (htidy : (w.host s).Tidy)
    (hlimit : limit < 2 ^ 64)
    (hd : ∀ o ∈ w.road s.opposite, ∀ v ∈ o.message.payloads, v.depth ≤ Codec.maxDepth)
    (hown : ∀ p ∈ (w.host s).concluded, p.2.isOwn = true)
    (hstop : ∀ serial, a ≠ .op (.stop serial)) (hr : Recalled w s.opposite) :
    Recalled w' s.opposite := by
  have haimed {r : Run η} (hrun : r ∈ (w.host s).endpoint.runs)
      (htells : (w.host s).tells a r = true) :=
    h.aimed_other htidy hlimit hd hstop hr hrun htells
  obtain ⟨sent, stopped, aimed, aborted, heard⟩ := hr
  rw [Side.opposite_opposite] at stopped aimed aborted
  rw [← h.other] at sent haimed stopped aimed aborted heard
  refine { sent := ?sent, stopped := ?stopped, aimed := ?aimed, aborted := ?aborted,
           heard := heard }
  case sent => exact fun o ho => sent o (h.mem_road_other ho)
  case stopped =>
    intro hopen r hrun hfired
    rw [Side.opposite_opposite, h.host_self] at hopen hrun
    have hbefore := (w.host s).isOpen_of_step a hopen
    rcases (Host.mem_runs_step _ a r).mp hrun with ⟨r₀, hr₀, -, rfl⟩ | hstart
    · rcases Bool.or_eq_true_iff.mp hfired with hfired | htells
      · exact stopped hbefore r₀ hr₀ hfired
      · rcases haimed hr₀ htells with hcloses | ⟨id, -, hid, ht⟩
        · rw [Host.isOpen_of_closes hcloses] at hopen
          cases hopen
        · exact ⟨id, hid, ht⟩
    · -- a run that begins has not been told
      rw [(Host.starts?_eq_some hstart).fired] at hfired
      cases hfired
  case aimed =>
    intro m hm r hrun htells
    rw [Side.opposite_opposite, h.self, Chronicle.past_act] at hm
    rcases List.mem_append.mp hm with hm | hm
    · exact aimed m hm r hrun htells
    · obtain rfl := List.mem_singleton.mp hm
      exact haimed hrun htells
  case aborted =>
    intro o ho id habort
    rw [Side.opposite_opposite] at ho
    rcases h.mem_road ho with ho | ⟨-, hq⟩
    · exact aborted o ho id habort
    · -- the run was told before, and the endpoint is still open
      obtain ⟨r, ends, hopen⟩ := Host.ends_of_aborts hq habort
      obtain ⟨id', hid, ht⟩ := stopped hopen r (List.mem_of_find?_eq_some ends.run)
        (Host.fired_of_aborted hown ends.ending)
      obtain rfl : id' = id := Option.some.inj (hid.symm.trans ends.request)
      exact ht

omit [Handler η] in
/-- Messages that are lost lead nowhere. -/
theorem Loss.recalled (h : Loss w w') (hr : Recalled w s) : Recalled w' s := by
  have hhost : w'.host s.opposite = w.host s.opposite := congrArg Chronicle.host (h.same _)
  refine { sent := ?sent, stopped := ?stopped, aimed := ?aimed, aborted := ?aborted,
           heard := ?heard }
  case sent =>
    rw [h.same]
    exact fun o ho => hr.sent o ((h.road s).subset ho)
  case stopped =>
    rw [h.same, hhost]
    exact hr.stopped
  case aimed =>
    rw [h.same, h.same]
    exact hr.aimed
  case aborted =>
    rw [h.same]
    exact fun o ho => hr.aborted o ((h.road s.opposite).subset ho)
  case heard =>
    rw [h.same]
    exact hr.heard

omit [Handler η] in
theorem recalled_ofConfigs (c : Side → Config) (s : Side) : Recalled (η := η) (.ofConfigs c) s where
  sent _ ho := absurd ho List.not_mem_nil
  stopped _ _ hr := absurd hr List.not_mem_nil
  aimed _ hm := absurd hm List.not_mem_nil
  aborted _ ho := absurd ho List.not_mem_nil
  heard before m after hpast := by
    have hnil : ([] : List (Moment η)) = before ++ m :: after := hpast
    simp at hnil

/-- The chronicles of a wire are runs, so what every run keeps holds of them. -/
theorem Reached.chronicle_kept {ok : Op η → Prop} {c : Side → Config} (h : Reached limit ok c w)
    (s : Side) : (w.chronicle s).Kept := by
  obtain ⟨acts, hacts⟩ := h.exists_run s
  rw [hacts]
  exact Chronicle.kept (c s) acts

/-- **Where cancels come from and where they lead**, in every run in which no handler fires the
signal of its own call. -/
theorem Reached.recalled {ok : Op η → Prop} {c : Side → Config} (h : Reached limit ok c w)
    (hok : ∀ o, ok o → ∀ serial, o ≠ .stop serial) (hlimit : limit < 2 ^ 64) (s : Side) :
    Recalled w s := by
  induction h generalizing s with
  | start => exact recalled_ofConfigs c s
  | @step w w' h hstep ih =>
      rcases hstep.turn fun s => (h.kept s).1 with ⟨t, a, hturn, hop⟩ | hloss
      · rcases eq_or_opposite t s with rfl | rfl
        · exact hturn.recalled_self (h.chronicle_kept _) hlimit (h.depth _) (ih _)
        · refine hturn.recalled_other (h.kept _).2 hlimit (h.depth _) (h.own _) ?_ (ih _)
          exact fun serial ha => hok _ (hop _ ha) serial rfl
      · exact hloss.recalled (ih s)

/-! ## What both sides can rely on -/

/-- What becomes of the cancels of the caller with the past `x` on the side with the past `y`. -/
structure Targeted (x y : Chronicle η) : Prop where
  /-- Before the end, a run that has been told to stop works on a call that its caller has taken
  back, and that is settled accordingly. -/
  fired : y.host.endpoint.isOpen = true → ∀ r ∈ y.host.endpoint.runs, r.fired = true →
    ∃ id, r.request = some id ∧ x.TookBack id ∧ ∃ q ∈ x.host.calls, q.call.id = some id ∧
      (q.call.delivered = some (.error .cancelled) ∨
        ∃ d, q.call.delivered = some (.error (.timeout d)))
  /-- What tells a run to stop is a cancel for its own request, or the end. -/
  aimed : ∀ m ∈ y.past, ∀ r ∈ m.after.endpoint.runs, r.fired = true →
    (∃ r₀ ∈ m.host.endpoint.runs, r₀.serial = r.serial ∧ r₀.fired = true) ∨
      m.after.endpoint.isOpen = false ∨
      ∃ id, m.host.receives? m.act = some (.cancel id) ∧ r.request = some id ∧ x.TookBack id
  /-- An answer to a call that was taken back changes nothing. -/
  discarded : ∀ before m after, x.past = before ++ m :: after → ∀ msg id,
    m.host.receives? m.act = some msg → msg.replies? = some id →
      Chronicle.TookBack ⟨m.host, before⟩ id → m.after = m.host ∧ m.events = []
  /-- An answer that says that its handler was aborted is such an answer. -/
  late : ∀ before m after, x.past = before ++ m :: after → ∀ id err,
    m.host.receives? m.act = some (.replyErr id err) → err.code = .cancelled →
      Chronicle.TookBack ⟨m.host, before⟩ id
  /-- No call is settled with it. -/
  unheard : ∀ q ∈ x.host.calls, ∀ err, q.call.delivered = some (.error (.remote err)) →
    err.code ≠ .cancelled

omit [Handler η] in
/-- An endpoint that refuses a call gives reasons of its own. -/
theorem refused?_ne_remote (h : Host η) (a : Act η) (err : RemoteError) :
    h.refused? a ≠ some (.remote err) := by
  intro he
  rcases Host.refused?_eq_some he with ⟨i, hside⟩ | ⟨args, hrefuses⟩
  · cases hside
  · cases hrefuses

omit [Handler η] in
/-- Calls are refused only when they are made. -/
theorem cause?_ne_refused {h : Host η} {k : Nat} {q : Asked} {a : Act η} (err : CallError) :
    q.cause? h k a ≠ some (.refused err) :=
  fun hz => nomatch Asked.endedBy hz

omit [Handler η] in
/-- The error of a handler settles a call with the answer that carries it. -/
theorem eq_answered_of_remote {m : Moment η} {k : Nat} {z : Cause} {proxy : ProxyId}
    {err : RemoteError} (hz : m.cause? k = some z)
    (hresult : z.result proxy = .error (.remote err)) : z = .answered (.error err) := by
  cases z with
  | refused e =>
      obtain rfl : e = .remote err := Except.error.inj hresult
      unfold Moment.cause? at hz
      split at hz
      · exact absurd hz (cause?_ne_refused _)
      · obtain ⟨-, hz⟩ := Option.ite_none_right_eq_some.mp hz
        obtain ⟨e, he, heq⟩ := Option.map_eq_some_iff.mp hz
        obtain rfl := Cause.refused.inj heq
        exact absurd he (refused?_ne_remote m.host m.act err)
  | answered reply =>
      cases reply with
      | ok v => cases hresult
      | error e =>
          have hremote := Except.error.inj hresult
          unfold CallError.ofRemote at hremote
          split at hremote
          · cases hremote
          · rw [CallError.remote.inj hremote]
  | _ => cases hresult

/-- The answer that settles a call arrives while the call waits. -/
theorem answered_at {c : Config} {acts : List (Act η)} {k : Nat}
    {reply : Except RemoteError Value} (hfirst : ((Chronicle.ofConfig c).run acts).past.findSome?
      (·.cause? k) = some (.answered reply)) :
    ∃ before m after msg id, ((Chronicle.ofConfig c).run acts).past = before ++ m :: after ∧
      m.host.receives? m.act = some msg ∧ msg.answers? (some id) = some reply ∧
      id ∈ m.host.endpoint.waiting := by
  obtain ⟨before, m, after, hpast, hcause, hnone⟩ := List.findSome?_eq_some_iff.mp hfirst
  obtain ⟨acts₀, hacts₀⟩ := Chronicle.exists_run_of_past hpast
  have hkept := Chronicle.kept c acts₀
  rw [hacts₀] at hkept
  obtain ⟨q₀, hq₀, hz⟩ := Host.calls_of_answered hcause
  obtain ⟨msg, id, hmsg, hid, hanswer⟩ := Host.receives?_of_answered hz
  refine ⟨before, m, after, msg, id, hpast, hmsg, hanswer, ?_⟩
  have hd := hkept.first k q₀ hq₀
  rw [List.findSome?_eq_none_iff.mpr hnone] at hd
  exact (hkept.sound.mem_waiting_iff (List.mem_of_getElem? hq₀) hid).mpr hd

/-- **A cancel reaches the run for its call and nothing else, and no caller learns of it from the
other side.** -/
theorem Reached.targeted {ok : Op η → Prop} {c : Side → Config} (h : Reached limit ok c w)
    (hok : ∀ o, ok o → ∀ serial, o ≠ .stop serial) (hlimit : limit < 2 ^ 64) (s : Side) :
    Targeted (w.chronicle s) (w.chronicle s.opposite) := by
  have hr := h.recalled hok hlimit s
  have hx := h.chronicle_kept s
  obtain ⟨acts, hacts⟩ := h.exists_run s
  -- the chronicle up to one of its moments is itself a run
  have hkept {before : List (Moment η)} {m : Moment η} {after : List (Moment η)}
      (hpast : (w.chronicle s).past = before ++ m :: after) :
      Chronicle.Kept ⟨m.host, before⟩ := by
    rw [hacts] at hpast
    obtain ⟨acts₀, hacts₀⟩ := Chronicle.exists_run_of_past hpast
    exact hacts₀ ▸ Chronicle.kept (c s) acts₀
  have hlate : ∀ before m after, (w.chronicle s).past = before ++ m :: after → ∀ id err,
      m.host.receives? m.act = some (.replyErr id err) → err.code = .cancelled →
        Chronicle.TookBack ⟨m.host, before⟩ id := by
    intro before m after hpast id err hmsg hcode
    exact hr.heard before m after hpast _ id hmsg (if_pos hcode)
  refine { fired := ?fired, aimed := ?aimed, discarded := ?discarded, late := hlate,
           unheard := ?unheard }
  case fired =>
    intro hopen r hrun hfired
    obtain ⟨id, hid, ht⟩ := hr.stopped hopen r hrun hfired
    exact ⟨id, hid, ht, ht.settled hx⟩
  case aimed =>
    intro m hm r hrun hfired
    rcases (Host.mem_runs_step m.host m.act r).mp hrun with ⟨r₀, hr₀, -, rfl⟩ | hstart
    · rcases Bool.or_eq_true_iff.mp hfired with hfired | htells
      · exact Or.inl ⟨r₀, hr₀, rfl, hfired⟩
      · rcases hr.aimed m hm r₀ hr₀ htells with hcloses | hcancel
        · exact Or.inr (Or.inl (Host.isOpen_of_closes hcloses))
        · exact Or.inr (Or.inr hcancel)
    · rw [(Host.starts?_eq_some hstart).fired] at hfired
      cases hfired
  case discarded =>
    intro before m after hpast msg id hmsg hreply ht
    have hstep := Host.step_of_late hmsg hreply (ht.not_mem_waiting (hkept hpast))
    exact ⟨congrArg Prod.fst hstep, congrArg Prod.snd hstep⟩
  case unheard =>
    intro q hq err hd hcode
    obtain ⟨k, hk⟩ := List.mem_iff_getElem?.mp hq
    rw [hx.first k q hk] at hd
    obtain ⟨z, hfirst, hresult⟩ := Option.map_eq_some_iff.mp hd
    obtain ⟨m, -, hz⟩ := List.exists_of_findSome?_eq_some hfirst
    obtain rfl := eq_answered_of_remote hz hresult
    rw [hacts] at hfirst
    obtain ⟨before, m, after, msg, id, hpast, hmsg, hanswer, hwait⟩ := answered_at hfirst
    obtain rfl : msg = .replyErr id err := Message.eq_replyErr_of_answers hanswer
    rw [← hacts] at hpast
    exact (hlate before m after hpast id err hmsg hcode).not_mem_waiting (hkept hpast) hwait

end Wire

end PeerRpc
