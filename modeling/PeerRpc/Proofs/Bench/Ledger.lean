import PeerRpc.Proofs.Bench.Custody

/-!
# PeerRpc.Proofs.Bench.Ledger -- what an end has put on its stream

`Desk.Ledger` says what the octets are that an end has written, with those it has still to write:
the frames of the messages that were admitted, one after the other and each whole, and after them at
most one close frame. Whatever becomes of the tasks, a frame enters the output in one piece, and only
a task that has the writer puts one there.

`Desk.Parting` says what the one close has done that found its end open, when it is done: the close
frame is the last thing written and the stream has ended, unless the time was over while there was
no room in the pipe.

Each kind of step keeps both. A turn that puts nothing into the output is `Ledger.keeps`; a send that
puts its frame there is `Ledger.admits`, and the close is `Ledger.parts`.
-/

namespace PeerRpc

namespace Stream

variable {t : Ticket} {e e' : End}

/-- What a turn of a send comes to, as far as the output of its end goes. -/
inductive Posted (t : Ticket) (op : Sending) (e e' : End) (next? : Option Work)
    (result? : Option Bench.Result) : Prop
  /-- Nothing is put into the output. -/
  | keeps (moved : Bytes) (moves : Moves e e' [] moved)
      (still : e.closed.fired = true → e'.output = e.output)
      (next : ∀ op', next? = some (.send (.writing op')) →
        op' ≠ .flushing ∧ op ≠ .writing .flushing)
      (result : result? ≠ some (.ok none)) : Posted t op e e' next? result?
  /-- The frame is put into the output, or was put there before. -/
  | posts (op' : Writing) (e₁ : End) (goes : op.Goes t e op' e₁) (isOpen : e.closed.fired = false)
      (fits : op'.Fits e) (moved : Bytes) (moves : Moves e e' op'.added moved)
      (next : ∀ w, next? = some w → w = .send (.writing .flushing)) : Posted t op e e' next? result?

theorem posted (now : Nat) (t : Ticket) (op : Sending) (e : End) :
    Posted t op e (send t op e).state ((Work.send op).next? now t e)
        ((Work.send op).result? now t e) ∧
      (send t op e).state.outbound.cut = e.outbound.cut := by
  have hcut {op' : Writing} {e₁ : End} (h : op.Goes t e op' e₁) :
      e₁.outbound.cut = e.outbound.cut := by
    rw [h.eq_with]
  have hfits {op' : Writing} {e₁ : End} (h : op.Goes t e op' e₁) : op'.Fits e₁ ↔ op'.Fits e :=
    Writing.fits_congr (by rw [h.eq_with])
  rw [Work.next?_send, Work.result?_send]
  have hsent := sent t op e
  generalize (send t op e).state = e' at hsent ⊢
  generalize (send t op e).progress = r at hsent ⊢
  cases hsent with
  | refused msg fresh never same err =>
      subst same
      exact ⟨.keeps [] (.refl _) (fun _ => rfl) nofun nofun, rfl⟩
  | queued msg first later lock holder same =>
      refine ⟨.keeps [] ((Moves.refl e).congr rfl (same ▸ rfl)) (fun _ => by rw [same]) nofun nofun, ?_⟩
      rw [same]
  | stopped op' e₁ goes fired same =>
      refine ⟨.keeps [] ((Moves.refl e₁).congr goes.eq_with (same ▸ rfl)) (fun _ => ?_) nofun nofun, ?_⟩
      · rw [same, goes.eq_with]
        rfl
      · have hsame := hcut goes
        rw [same]
        exact hsame
  | writes op' op'' e₁ e₂ goes isOpen wrote same =>
      have hstill : e.closed.fired = true → e'.output = e.output := by
        rw [isOpen]
        exact nofun
      cases wrote with
      | feeds f feeding moved moves closed lock cut whole left full =>
          subst feeding
          refine ⟨.keeps moved (moves.congr goes.eq_with (same ▸ rfl)) hstill ?_ nofun, ?_⟩
          · rintro op' ⟨⟩
            refine ⟨nofun, ?_⟩
            rintro rfl
            cases goes
          · rw [same]
            exact cut.trans (hcut goes)
      | waits fits moved moves closed lock cut whole left full =>
          refine ⟨.posts op' e₁ goes isOpen ((hfits goes).mp fits) moved
            (moves.congr goes.eq_with (same ▸ rfl)) ?_, ?_⟩
          · rintro w ⟨⟩
            rfl
          · rw [same]
            exact cut.trans (hcut goes)
  | delivers op' e₁ e₂ goes isOpen wrote same =>
      cases wrote with
      | ends fits moved moves closed lock cut empty =>
          refine ⟨.posts op' e₁ goes isOpen ((hfits goes).mp fits) moved
            (moves.congr goes.eq_with (same ▸ rfl)) nofun, ?_⟩
          rw [same]
          exact cut.trans (hcut goes)
  | fails op' e₁ e₂ err goes isOpen wrote same =>
      have hstill : e.closed.fired = true → e'.output = e.output := by
        rw [isOpen]
        exact nofun
      cases wrote with
      | breaks err fits moved moves closed lock cut broken =>
          refine ⟨.posts op' e₁ goes isOpen ((hfits goes).mp fits) moved
            (moves.congr goes.eq_with (same ▸ rfl)) nofun, ?_⟩
          rw [same]
          exact cut.trans (hcut goes)
      | refuses err f feeding moved moves closed lock cut why =>
          refine ⟨.keeps moved (moves.congr goes.eq_with (same ▸ rfl)) hstill nofun nofun, ?_⟩
          rw [same]
          exact cut.trans (hcut goes)

/-- What a turn of a close comes to, as far as the output of its end and the pipe go. -/
inductive Departed (now : Nat) (t : Ticket) (op : Closing) (e e' : End) (next? : Option Work)
    (result? : Option Bench.Result) : Prop
  /-- The end was closed before. -/
  | already (fresh : op = .fresh) (fired : e.closed.fired = true) (same : e' = e)
      (next : next? = none) : Departed now t op e e' next? result?
  /-- Another task has the writer. -/
  | queued (first : op = .fresh ∧ e.closed.fired = false ∨ op = .locking) (moves : Moves e e' [] [])
      (cut : e'.outbound.cut = e.outbound.cut) (next : next? = some (.close .locking))
      (result : result? = none) : Departed now t op e e' next? result?
  /-- The frame is still to be put into the output. -/
  | feeds (f : Frame) (deadline : Nat) (e₁ : End) (goes : op.Goes now t e (.feeding f) deadline e₁)
      (moved : Bytes) (moves : Moves e e' [] moved) (cut : e'.outbound.cut = e.outbound.cut)
      (next : ∀ w, next? = some w → w = .close (.writing (.feeding f) deadline))
      (done : ∀ r, result? = some r → e.outbound.cut = true ∨ ¬(Writing.feeding f).Fits e ∨
        deadline ≤ now ∧ e'.isStalled = true) : Departed now t op e e' next? result?
  /-- The frame is put into the output, or was put there before. -/
  | puts (op' : Writing) (deadline : Nat) (e₁ : End) (goes : op.Goes now t e op' deadline e₁)
      (moved : Bytes) (moves : Moves e e' op'.added moved)
      (cut : e'.outbound.cut = true →
        e.outbound.cut = true ∨ e'.output = [] ∧ next? = none)
      (next : ∀ w, next? = some w → ∃ deadline, w = .close (.writing .ending deadline))
      (done : ∀ r, result? = some r → e.outbound.cut = true ∨
        (e'.output = [] ∧ e'.outbound.cut = true) ∨ deadline ≤ now ∧ e'.isStalled = true) :
      Departed now t op e e' next? result?

theorem departed (now : Nat) (t : Ticket) (op : Closing) (e : End) :
    Departed now t op e (close now t op e).state ((Work.close op).next? now t e)
      ((Work.close op).result? now t e) := by
  have hcut {op' : Writing} {deadline : Nat} {e₁ : End} (h : op.Goes now t e op' deadline e₁) :
      e₁.outbound.cut = e.outbound.cut := by
    rw [h.eq_with]
  have hfits {op' : Writing} {deadline : Nat} {e₁ : End} (h : op.Goes now t e op' deadline e₁) :
      op'.Fits e₁ ↔ op'.Fits e :=
    Writing.fits_congr (by rw [h.eq_with])
  rw [Work.next?_close, Work.result?_close]
  have hcloses := closes now t op e
  generalize (close now t op e).state = e' at hcloses ⊢
  generalize (close now t op e).progress = r at hcloses ⊢
  cases hcloses with
  | already fresh fired same => exact .already fresh fired same rfl
  | queued closed lock holder later first same =>
      refine .queued ?_ ((Moves.refl e).congr rfl (same ▸ rfl)) (same ▸ rfl) rfl rfl
      exact first.imp (fun h => ⟨h.1, h.2.1⟩) And.left
  | writes op' op'' deadline e₁ goes wrote early =>
      cases wrote with
      | feeds f feeding moved moves closed lock cut whole left full =>
          subst feeding
          refine .feeds f deadline e₁ goes moved (moves.congr goes.eq_with rfl)
            (cut.trans (hcut goes)) ?_ nofun
          rintro w ⟨⟩
          rfl
      | waits fits moved moves closed lock cut whole left full =>
          refine .puts op' deadline e₁ goes moved (moves.congr goes.eq_with rfl) ?_ ?_ nofun
          · exact fun h => Or.inl ((hcut goes).symm.trans (cut.symm.trans h))
          · rintro w ⟨⟩
            exact ⟨deadline, rfl⟩
  | givesUp op' op'' deadline e₁ e₂ goes wrote late same =>
      cases wrote with
      | feeds f feeding moved moves closed lock cut whole left full =>
          subst feeding
          refine .feeds f deadline e₁ goes moved (moves.congr goes.eq_with (same ▸ rfl)) ?_ nofun ?_
          · rw [same]
            exact cut.trans (hcut goes)
          · intro r _
            rw [same]
            exact Or.inr (Or.inr ⟨late, End.isStalled_iff.mpr ⟨left, full⟩⟩)
      | waits fits moved moves closed lock cut whole left full =>
          refine .puts op' deadline e₁ goes moved (moves.congr goes.eq_with (same ▸ rfl)) ?_ nofun ?_
          · intro h
            rw [same] at h
            exact Or.inl ((hcut goes).symm.trans (cut.symm.trans h))
          · intro r _
            rw [same]
            exact Or.inr (Or.inr ⟨late, End.isStalled_iff.mpr ⟨left, full⟩⟩)
  | ends op' deadline e₁ e₂ r goes wrote same =>
      cases wrote with
      | ends fits moved moves closed lock cut empty =>
          refine .puts op' deadline e₁ goes moved (moves.congr goes.eq_with (same ▸ rfl)) ?_ nofun ?_
          · intro _
            rw [same]
            exact Or.inr ⟨empty, rfl⟩
          · intro r _
            rw [same]
            exact Or.inr (Or.inl ⟨empty, cut⟩)
      | breaks err fits moved moves closed lock cut broken =>
          have hbroken : e.outbound.cut = true := (hcut goes).symm.trans broken
          exact .puts op' deadline e₁ goes moved (moves.congr goes.eq_with (same ▸ rfl))
            (fun _ => Or.inl hbroken) nofun fun _ _ => Or.inl hbroken
      | refuses err f feeding moved moves closed lock cut why =>
          subst feeding
          refine .feeds f deadline e₁ goes moved (moves.congr goes.eq_with (same ▸ rfl)) ?_ nofun ?_
          · rw [same]
            exact cut.trans (hcut goes)
          · intro r _
            exact why.imp (hcut goes).symm.trans fun hno => Or.inl (mt (hfits goes).mpr hno)

end Stream

namespace Bench

namespace Desk

open Function (update update_self update_of_ne)

/-! ## The ledger -/

/-- The frames of messages, one after the other. -/
def framed (admitted : List (Ticket × Bytes)) : Bytes :=
  (admitted.map fun a => (Frame.message a.2).toBytes).flatten

theorem framed_concat (admitted : List (Ticket × Bytes)) (a : Ticket × Bytes) :
    framed (admitted ++ [a]) = framed admitted ++ (Frame.message a.2).toBytes := by
  simp [framed]

/-- What the stage of a task says about what was put into the output. -/
def Suits (admitted : List (Ticket × Bytes)) (farewell : Bytes) (t : Ticket) : Stream.Work → Prop
  | .send (.writing .flushing) => t ∈ admitted.map Prod.fst
  | .send (.writing _) => t ∉ admitted.map Prod.fst
  | .close .fresh => True
  | .close (.writing .ending _) => farewell = Frame.close.toBytes
  | .close _ => farewell = []
  | _ => True

/-- The octets of an end are those of the messages `admitted`, and then those of `farewell`. -/
structure Ledger (d : Desk) (admitted : List (Ticket × Bytes)) (farewell : Bytes) : Prop where
  octets : d.carried ++ d.fin.output = framed admitted ++ farewell
  order : (admitted.map Prod.fst).Sublist (d.obtained.map Prod.fst)
  jobs : ∀ a ∈ admitted,
    d.jobs a.1 = some (.send a.2) ∧ a.2.length ≤ d.fin.limits.maxMessageSize
  works : ∀ t w, d.works t = some w → Suits admitted farewell t w
  delivered : ∀ t msg, (t, .ok none) ∈ d.results → d.jobs t = some (.send msg) →
    (t, msg) ∈ admitted
  farewell : farewell = [] ∨ farewell = Frame.close.toBytes ∧ d.fin.closed.fired = true

/-- The close frame is the last thing written, and the stream has ended. -/
def Parted (d : Desk) (farewell : Bytes) : Prop :=
  farewell = Frame.close.toBytes ∧ d.fin.output = [] ∧ d.fin.outbound.cut = true

/-- A task ended, without room to write, when its time was over. -/
def GaveUp (d : Desk) (t : Ticket) : Prop :=
  ∃ since late, (t, since) ∈ d.obtained ∧ (t, late) ∈ d.stalled ∧
    since + Stream.closeTimeout ≤ late

/-- What the one close has done that found its end open. -/
structure Parting (severs : Prop) (d : Desk) (farewell : Bytes) : Prop where
  cut : d.fin.outbound.cut = true → severs ∨ d.gone = true ∨
    d.Parted farewell ∧ ∀ t op, d.works t = some (.close op) → op = .fresh
  closers : ∀ x ∈ d.closers, ∀ r, (x.1, r) ∈ d.results →
    severs ∨ d.Parted farewell ∨ d.GaveUp x.1

variable {d : Desk} {admitted : List (Ticket × Bytes)} {farewell : Bytes}
variable {severs spoils : Prop} {t : Ticket} {w : Stream.Work}

theorem ledger_ofLimits (l : ChannelLimits) (capacity : Nat) :
    (ofLimits l capacity).Ledger [] [] where
  octets := rfl
  order := List.nil_sublist _
  jobs := nofun
  works := nofun
  delivered := nofun
  farewell := Or.inl rfl

theorem parting_ofLimits (severs : Prop) (l : ChannelLimits) (capacity : Nat) :
    (ofLimits l capacity).Parting severs [] where
  cut := nofun
  closers := nofun

/-! ## A turn that puts nothing into the output -/

theorem Ledger.keeps (h : d.Ledger admitted farewell)
    (octets : (d.tried t w).carried ++ (d.tried t w).fin.output = d.carried ++ d.fin.output)
    (limits : (d.tried t w).fin.limits = d.fin.limits)
    (next : ∀ w', w.next? d.now t d.fin = some w' → Suits admitted farewell t w')
    (result : w.result? d.now t d.fin = some (.ok none) → ∀ msg, d.jobs t = some (.send msg) →
      (t, msg) ∈ admitted) :
    (d.tried t w).Ledger admitted farewell where
  octets := octets.trans h.octets
  order := h.order.trans ((obtained_tried d t w).sublist.map Prod.fst)
  jobs a ha := by
    rw [limits]
    exact h.jobs a ha
  works u w' hu := by
    rcases update_eq_some.mp hu with ⟨rfl, hnext⟩ | ⟨-, hu⟩
    · exact next w' hnext
    · exact h.works u w' hu
  delivered u msg hu hjob := by
    rcases mem_results_tried.mp hu with ⟨rfl, hr⟩ | hu
    · exact result hr msg hjob
    · exact h.delivered u msg hu hjob
  farewell := h.farewell.imp_right fun hf =>
    ⟨hf.1, Stream.fired_attempt d.now t w hf.2⟩

theorem GaveUp.tried {u : Ticket} (h : d.GaveUp u) (t : Ticket) (w : Stream.Work) :
    (d.tried t w).GaveUp u := by
  obtain ⟨since, late, hsince, hlate, hle⟩ := h
  exact ⟨since, late, (obtained_tried d t w).subset hsince, (stalled_tried d t w).subset hlate, hle⟩

/-- A task that does not close has no part in it. -/
theorem Parting.keeps (h : d.Parting severs farewell)
    (cut : (d.tried t w).fin.outbound.cut = d.fin.outbound.cut)
    (output : farewell = Frame.close.toBytes → (d.tried t w).fin.output = d.fin.output)
    (marks : w.marks d.fin = false) (hjob : ∀ x ∈ d.closers, x.1 ≠ t)
    (next : ∀ op, w.next? d.now t d.fin ≠ some (.close op)) :
    (d.tried t w).Parting severs farewell := by
  have hparted : d.Parted farewell → (d.tried t w).Parted farewell := by
    rintro ⟨hf, hout, hcut⟩
    exact ⟨hf, (output hf).trans hout, cut.trans hcut⟩
  constructor
  · intro hcut
    refine (h.cut (cut.symm.trans hcut)).imp_right (Or.imp_right ?_)
    rintro ⟨hp, hfresh⟩
    refine ⟨hparted hp, fun u op hu => ?_⟩
    rcases update_eq_some.mp hu with ⟨rfl, hnext⟩ | ⟨-, hu⟩
    · exact absurd hnext (next op)
    · exact hfresh u op hu
  · intro x hx r hr
    rw [closers_of_not marks] at hx
    rcases mem_results_tried.mp hr with ⟨rfl, -⟩ | hr
    · exact absurd rfl (hjob x hx)
    · exact (h.closers x hx r hr).imp_right (Or.imp hparted fun hg => hg.tried t w)

/-! ## Sends -/

/-- A send that has not put its frame into the output is not among those that have. -/
theorem Ledger.not_admitted (h : d.Ledger admitted farewell) (c : d.Custody)
    {op : Stream.Sending} (runs : d.works t = some (.send op)) (hop : op ≠ .writing .flushing) :
    t ∉ admitted.map Prod.fst := by
  obtain ⟨job, -, hdoes⟩ := c.jobs t _ runs
  -- without the writer no frame is put there
  have hearly (hidle : ¬(Stream.Work.send op).Writes) : t ∉ admitted.map Prod.fst := by
    intro hmem
    obtain ⟨x, hx, rfl⟩ := List.mem_map.mp (h.order.subset hmem)
    exact hidle ((c.spoken x hx).2 _ runs)
  cases hdoes with
  | fresh msg => exact hearly id
  | locking msg => exact hearly id
  | feeding msg => exact h.works t _ runs
  | flushing msg => exact absurd rfl hop

/-- What a close has said does not matter to sends. -/
theorem Suits.withFarewell {op : Stream.Sending} (h : Suits admitted farewell t (.send op))
    (farewell' : Bytes) : Suits admitted farewell' t (.send op) := by
  cases op with
  | fresh msg => trivial
  | locking msg => trivial
  | writing op => cases op <;> exact h

theorem Suits.extend {u : Ticket} (h : Suits admitted farewell u w) (hne : u ≠ t) (msg : Bytes) :
    Suits (admitted ++ [(t, msg)]) farewell u w := by
  have hmem : u ∈ (admitted ++ [(t, msg)]).map Prod.fst ↔ u ∈ admitted.map Prod.fst := by
    rw [List.map_append, List.mem_append]
    exact or_iff_left fun hno => hne (List.mem_singleton.mp hno)
  cases w with
  | send op =>
      cases op with
      | fresh msg => trivial
      | locking msg => trivial
      | writing op =>
          cases op with
          | feeding f => exact fun hno => h (hmem.mp hno)
          | flushing => exact hmem.mpr h
          | ending => exact fun hno => h (hmem.mp hno)
  | recv op => trivial
  | close op => cases op with
    | fresh => trivial
    | locking => exact h
    | writing op deadline => cases op <;> exact h

/-- A send that writes has the writer, and nobody has got it later. -/
theorem Ledger.last (h : d.Ledger admitted farewell) (c : d.Custody) {op : Stream.Sending}
    {op' : Stream.Writing} {e₁ : Stream.End} (runs : d.works t = some (.send op))
    (goes : op.Goes t d.fin op' e₁) (hnew : t ∉ admitted.map Prod.fst) :
    ∃ before : List Ticket, (admitted.map Prod.fst).Sublist before ∧
      (d.tried t (.send op)).obtained.map Prod.fst = before ++ [t] := by
  rcases goes.obtains with hobtains | rfl
  · refine ⟨d.obtained.map Prod.fst, h.order, ?_⟩
    rw [obtained_of_obtains (w := .send op) hobtains, List.map_append]
    rfl
  · obtain ⟨-, since, hlast, -⟩ := c.writer t _ runs trivial
    obtain ⟨before, hbefore⟩ := List.getLast?_eq_some_iff.mp hlast
    have horder := h.order
    rw [hbefore, List.map_append] at horder
    obtain ⟨l₁, l₂, hl, hl₁, hl₂⟩ := List.sublist_append_iff.mp horder
    have hnil : l₂ = [] := by
      rcases List.sublist_singleton.mp hl₂ with hnil | hone
      · exact hnil
      · refine absurd ?_ hnew
        rw [hl, hone]
        exact List.mem_append_right _ List.mem_cons_self
    rw [hnil, List.append_nil] at hl
    refine ⟨before.map Prod.fst, hl ▸ hl₁, ?_⟩
    rw [obtained_of_not rfl, hbefore, List.map_append]
    rfl

/-- A frame is put into the output, behind those that are there. -/
theorem Ledger.admits (h : d.Ledger admitted farewell) (c : d.Custody) {op : Stream.Sending}
    {op' : Stream.Writing} {e₁ : Stream.End} {msg moved : Bytes}
    (runs : d.works t = some (.send op)) (goes : op.Goes t d.fin op' e₁)
    (isOpen : d.fin.closed.fired = false) (hjob : d.jobs t = some (.send msg))
    (hop : op ≠ .writing .flushing)
    (hsize : msg.length ≤ d.fin.limits.maxMessageSize)
    (moves : Stream.Moves d.fin ((Stream.Work.send op).attempt d.now t d.fin).state
      (Frame.message msg).toBytes moved)
    (next : ∀ w, (Stream.Work.send op).next? d.now t d.fin = some w →
      w = .send (.writing .flushing)) :
    (d.tried t (.send op)).Ledger (admitted ++ [(t, msg)]) farewell := by
  have hnew := h.not_admitted c runs hop
  have hlimits : (d.tried t (.send op)).fin.limits = d.fin.limits :=
    congrArg Stream.Incoming.limits moves.rest
  have hsilent : farewell = [] := h.farewell.resolve_right fun hno => by
    rw [isOpen] at hno
    exact nomatch hno.2
  obtain ⟨before, hsub, hbefore⟩ := h.last c runs goes hnew
  refine ⟨?_, ?_, ?_, ?_, ?_, ?_⟩
  · rw [tried_octets moves, h.octets, hsilent, framed_concat, List.append_nil, List.append_nil]
  · rw [hbefore, List.map_append]
    exact hsub.append (List.Sublist.refl _)
  · intro a ha
    rw [hlimits]
    rcases List.mem_append.mp ha with ha | ha
    · exact h.jobs a ha
    · obtain rfl := List.mem_singleton.mp ha
      exact ⟨hjob, hsize⟩
  · intro u w' hu
    rcases update_eq_some.mp hu with ⟨rfl, hnext⟩ | ⟨hne, hu⟩
    · obtain rfl := next w' hnext
      show u ∈ (admitted ++ [(u, msg)]).map Prod.fst
      rw [List.map_append]
      exact List.mem_append_right _ List.mem_cons_self
    · exact (h.works u w' hu).extend hne msg
  · intro u msg' hu hjob'
    rcases mem_results_tried.mp hu with ⟨rfl, -⟩ | hu
    · obtain rfl : msg = msg' := by
        have heq := hjob.symm.trans hjob'
        cases heq
        rfl
      exact List.mem_append_right _ List.mem_cons_self
    · exact List.mem_append_left _ (h.delivered u msg' hu hjob')
  · exact Or.inl hsilent

/-- **A turn of a send** puts at most its own frame into the output, whole. -/
theorem Ledger.sends (h : d.Ledger admitted farewell) (c : d.Custody) {op : Stream.Sending}
    (runs : d.works t = some (.send op)) :
    ∃ admitted', (d.tried t (.send op)).Ledger admitted' farewell := by
  obtain ⟨job, hjob, hdoes⟩ := c.jobs t _ runs
  cases (Stream.posted d.now t op d.fin).1 with
  | keeps moved moves still next result =>
      refine ⟨admitted, h.keeps ?_ (congrArg Stream.Incoming.limits moves.rest) ?_ ?_⟩
      · exact (tried_octets moves).trans (List.append_nil _)
      · intro w' hnext
        -- a frame that is still to be put there was not put there before
        have hdoes' := hdoes.attempt hnext
        cases w' with
        | send op' =>
            cases op' with
            | fresh msg => trivial
            | locking msg => trivial
            | writing op' =>
                obtain ⟨hne, hop⟩ := next op' hnext
                cases op' with
                | feeding f => exact h.not_admitted c runs hop
                | flushing => exact absurd rfl hne
                | ending => exact h.not_admitted c runs hop
        | recv op' => trivial
        | close op' => cases hdoes <;> cases hdoes'
      · exact fun hr => absurd hr result
  | posts op' e₁ goes isOpen fits moved moves next =>
      obtain ⟨msg, rfl, rfl | rfl⟩ := hdoes.goes goes
      · have hop : op ≠ .writing .flushing := by
          rintro rfl
          cases goes
        exact ⟨_, h.admits c runs goes isOpen hjob hop fits moves next⟩
      · -- the frame was put there at an earlier turn
        have hmem : t ∈ admitted.map Prod.fst := by
          cases goes with
          | writing op => exact h.works t _ runs
        obtain ⟨a, ha, hat⟩ := List.mem_map.mp hmem
        have hmine : (t, msg) ∈ admitted := by
          have heq := (h.jobs a ha).1
          rw [hat, hjob] at heq
          cases heq
          exact hat ▸ ha
        refine ⟨admitted, h.keeps ?_ (congrArg Stream.Incoming.limits moves.rest) ?_ ?_⟩
        · exact (tried_octets moves).trans (List.append_nil _)
        · intro w' hnext
          obtain rfl := next w' hnext
          exact hmem
        · intro _ msg' hjob'
          have heq := hjob.symm.trans hjob'
          cases heq
          exact hmine

/-! ## The close -/

/-- A close that has just come and writes has found the end open. -/
theorem open_of_goes {op : Stream.Closing} {op' : Stream.Writing} {deadline : Nat}
    {e₁ : Stream.End} (goes : op.Goes d.now t d.fin op' deadline e₁) :
    op = .fresh → d.fin.closed.fired = false := by
  rintro rfl
  cases goes with
  | fresh isOpen held => exact isOpen

/-- Beside the close that closes the end, none goes on. -/
theorem Custody.others_fresh (c : d.Custody) {op op' : Stream.Closing} {u : Ticket}
    (runs : d.works t = some (.close op)) (hop : op = .fresh → d.fin.closed.fired = false)
    (hu : d.works u = some (.close op')) (hne : u ≠ t) : op' = .fresh := by
  by_contra hop'
  obtain ⟨hfired, since, hclosers⟩ := c.closing u op' hu hop'
  by_cases hfresh : op = .fresh
  · rw [hop hfresh] at hfired
    cases hfired
  · obtain ⟨-, since', hclosers'⟩ := c.closing t op runs hfresh
    rw [hclosers] at hclosers'
    cases hclosers'
    exact hne rfl

/-- The close that closes the end is the only one that has found it open. -/
theorem Custody.closers_eq (c : d.Custody) {op : Stream.Closing}
    (runs : d.works t = some (.close op)) (hop : op = .fresh → d.fin.closed.fired = false) :
    ∀ x ∈ d.closers, x.1 = t := by
  intro x hx
  by_cases hfresh : op = .fresh
  · have hnil : d.closers = [] := c.closed.resolve_right fun hno => by
      rw [hop hfresh] at hno
      exact nomatch hno.1
    rw [hnil] at hx
    cases hx
  · obtain ⟨-, since, hclosers⟩ := c.closing t op runs hfresh
    rw [hclosers] at hx
    rw [List.mem_singleton.mp hx]

/-- When a close that writes gives up. -/
theorem Custody.since (c : d.Custody) {op : Stream.Closing} {op' : Stream.Writing}
    {deadline : Nat} {e₁ : Stream.End} (runs : d.works t = some (.close op))
    (goes : op.Goes d.now t d.fin op' deadline e₁) :
    ∃ since, (t, since) ∈ (d.tried t (.close op)).obtained ∧
      since + Stream.closeTimeout = deadline := by
  rcases goes.obtains with ⟨hobtains, hdeadline, -⟩ | rfl
  · refine ⟨d.now, ?_, hdeadline.symm⟩
    rw [obtained_of_obtains (w := .close op) hobtains]
    exact List.mem_append_right _ List.mem_cons_self
  · obtain ⟨-, since, hlast, hsince⟩ := c.writer t _ runs trivial
    refine ⟨since, ?_, (hsince op' deadline rfl).symm⟩
    exact (obtained_tried d t _).subset (List.mem_of_getLast? hlast)

theorem toBytes_ne_nil (f : Frame) : f.toBytes ≠ [] := by simp [Frame.toBytes]

/-- Before its frame is in the output, a close that goes on finds none there. -/
theorem Ledger.silent (h : d.Ledger admitted farewell) (c : d.Custody) {op : Stream.Closing}
    (runs : d.works t = some (.close op)) (hop : op = .fresh → d.fin.closed.fired = false)
    (hend : ∀ deadline, op ≠ .writing .ending deadline) : farewell = [] := by
  obtain ⟨job, -, hdoes⟩ := c.jobs t _ runs
  have hsuits := h.works t _ runs
  cases hdoes with
  | closeFresh =>
      refine h.farewell.resolve_right fun hno => ?_
      rw [hop rfl] at hno
      exact nomatch hno.2
  | closeLocking => exact hsuits
  | closeFeeding deadline => exact hsuits
  | ending deadline => exact absurd rfl (hend deadline)

/-- The outbound pipe is whole while the close that closes the end is not done, unless others have
cut it. -/
theorem Parting.whole (p : d.Parting severs farewell) (h : d.Ledger admitted farewell)
    (c : d.Custody) {op : Stream.Closing} (runs : d.works t = some (.close op))
    (hop : op = .fresh → d.fin.closed.fired = false) (hcut : d.fin.outbound.cut = true) :
    severs := by
  rcases p.cut hcut with hs | hgone | ⟨⟨hf, -⟩, hfresh⟩
  · exact hs
  · have hnone := c.resting hgone t
    rw [runs] at hnone
    cases hnone
  · obtain rfl := hfresh t op runs
    rcases h.farewell with hnil | ⟨-, hfired⟩
    · exact absurd (hf.symm.trans hnil) (toBytes_ne_nil _)
    · rw [hop rfl] at hfired
      cases hfired

/-- The close frame is put into the output, or was put there before. -/
theorem Ledger.parts (h : d.Ledger admitted farewell) (c : d.Custody) {op : Stream.Closing}
    {op' : Stream.Writing} {deadline : Nat} {e₁ : Stream.End} {moved : Bytes}
    (runs : d.works t = some (.close op)) (goes : op.Goes d.now t d.fin op' deadline e₁)
    (moves : Stream.Moves d.fin ((Stream.Work.close op).attempt d.now t d.fin).state op'.added moved)
    (next : ∀ w, (Stream.Work.close op).next? d.now t d.fin = some w →
      ∃ deadline, w = .close (.writing .ending deadline)) :
    (d.tried t (.close op)).Ledger admitted Frame.close.toBytes := by
  have hop := open_of_goes goes
  obtain ⟨job, hjob, hdoes⟩ := c.jobs t _ runs
  obtain ⟨rfl, hop'⟩ := hdoes.goesClose goes
  have hfarewell : farewell ++ op'.added = Frame.close.toBytes := by
    rcases hop' with rfl | rfl
    · rw [h.silent c runs hop, List.nil_append]
      · rfl
      · rintro deadline' rfl
        cases goes
    · have hsuits := h.works t _ runs
      cases goes with
      | writing op deadline => exact (List.append_nil _).trans hsuits
  refine ⟨?_, h.order.trans ((obtained_tried d t _).sublist.map Prod.fst), ?_, ?_, ?_, ?_⟩
  · rw [tried_octets moves, h.octets, List.append_assoc, hfarewell]
  · intro a ha
    rw [show (d.tried t (.close op)).fin.limits = d.fin.limits from
      congrArg Stream.Incoming.limits moves.rest]
    exact h.jobs a ha
  · intro u w' hu
    rcases update_eq_some.mp hu with ⟨rfl, hnext⟩ | ⟨hne, hu⟩
    · obtain ⟨deadline', rfl⟩ := next w' hnext
      rfl
    · have hsuits := h.works u w' hu
      cases w' with
      | send op => exact hsuits.withFarewell _
      | recv op => trivial
      | close op₂ =>
          obtain rfl := c.others_fresh runs hop hu hne
          trivial
  · intro u msg hu hjob'
    rcases mem_results_tried.mp hu with ⟨rfl, -⟩ | hu
    · have heq := hjob.symm.trans hjob'
      cases heq
    · exact h.delivered u msg hu hjob'
  · refine Or.inr ⟨rfl, Stream.fired_close d.now t op fun hno => ?_⟩
    exact (c.closing t op runs hno).1

/-- What the close that closes the end leaves, in terms of what it finds. -/
theorem Custody.parting (c : d.Custody) {op : Stream.Closing} {farewell' : Bytes}
    (runs : d.works t = some (.close op)) (hop : op = .fresh → d.fin.closed.fired = false)
    (hcut : (d.tried t (.close op)).fin.outbound.cut = true →
      severs ∨ (d.tried t (.close op)).Parted farewell' ∧
        (Stream.Work.close op).next? d.now t d.fin = none)
    (hend : ∀ r, (Stream.Work.close op).result? d.now t d.fin = some r →
      severs ∨ (d.tried t (.close op)).Parted farewell' ∨ (d.tried t (.close op)).GaveUp t) :
    (d.tried t (.close op)).Parting severs farewell' := by
  constructor
  · intro h
    rcases hcut h with hs | ⟨hp, hnone⟩
    · exact Or.inl hs
    · refine Or.inr (Or.inr ⟨hp, fun u op' hu => ?_⟩)
      rcases update_eq_some.mp hu with ⟨rfl, hnext⟩ | ⟨hne, hu⟩
      · rw [hnone] at hnext
        cases hnext
      · exact c.others_fresh runs hop hu hne
  · intro x hx r hr
    have hxt : x.1 = t := by
      cases hm : (Stream.Work.close op).marks d.fin with
      | true =>
          rw [closers_of_marks hm] at hx
          rcases List.mem_append.mp hx with hx | hx
          · exact c.closers_eq runs hop x hx
          · rw [List.mem_singleton.mp hx]
      | false =>
          rw [closers_of_not hm] at hx
          exact c.closers_eq runs hop x hx
    rcases mem_results_tried.mp hr with ⟨-, hr⟩ | hr
    · rw [hxt]
      exact hend r hr
    · have hnone := (c.done _ hr).2
      rw [hxt, runs] at hnone
      cases hnone

/-- A turn of a close that puts nothing into the output. -/
theorem Ledger.holds (h : d.Ledger admitted farewell) (c : d.Custody) {op : Stream.Closing}
    (runs : d.works t = some (.close op)) {moved : Bytes}
    (moves : Stream.Moves d.fin (Stream.close d.now t op d.fin).state [] moved)
    (next : ∀ w', (Stream.Work.close op).next? d.now t d.fin = some w' →
      Suits admitted farewell t w') : (d.tried t (.close op)).Ledger admitted farewell := by
  obtain ⟨job, hjob, hdoes⟩ := c.jobs t _ runs
  refine h.keeps ((tried_octets moves).trans (List.append_nil _))
    (congrArg Stream.Incoming.limits moves.rest) next fun _ msg hsend => ?_
  have heq := hjob.symm.trans hsend
  cases heq
  cases hdoes

/-- A close that ends late has written as long as it could. -/
theorem Custody.gaveUp (c : d.Custody) {op : Stream.Closing} {op' : Stream.Writing} {deadline : Nat}
    {e₁ : Stream.End} {r : Result} (runs : d.works t = some (.close op))
    (goes : op.Goes d.now t d.fin op' deadline e₁) (late : deadline ≤ d.now)
    (hdone : (Stream.Work.close op).result? d.now t d.fin = some r)
    (hstalled : (d.tried t (.close op)).fin.isStalled = true) : (d.tried t (.close op)).GaveUp t := by
  obtain ⟨since, hsince, rfl⟩ := c.since runs goes
  exact ⟨since, d.now, hsince,
    mem_stalled_tried (Option.isSome_iff_exists.mpr ⟨r, hdone⟩) hstalled, late⟩

/-- A close that finds the end closed does nothing. -/
theorem Ledger.finds (h : d.Ledger admitted farewell) (c : d.Custody)
    (runs : d.works t = some (.close .fresh)) (fired : d.fin.closed.fired = true)
    (same : (Stream.close d.now t .fresh d.fin).state = d.fin)
    (next : (Stream.Work.close .fresh).next? d.now t d.fin = none) :
    (d.tried t (.close .fresh)).Ledger admitted farewell ∧
      (d.Parting severs farewell → (d.tried t (.close .fresh)).Parting severs farewell) := by
  have hsame : (d.tried t (.close .fresh)).fin = d.fin := same
  have hmarks : (Stream.Work.close .fresh).marks d.fin = false := by
    show (!d.fin.closed.fired) = false
    rw [fired]
    rfl
  have hmoves : Stream.Moves d.fin (Stream.close d.now t .fresh d.fin).state [] [] := by
    rw [same]
    exact .refl _
  refine ⟨h.holds c runs hmoves ?_, fun p => ?_⟩
  · rw [next]
    exact nofun
  · refine p.keeps (by rw [hsame]) (fun _ => by rw [hsame]) hmarks ?_ ?_
    · rintro x hx rfl
      exact (c.closers x hx).2 runs
    · rw [next]
      exact fun _ => nofun

/-- **A turn of a close** puts at most its own frame into the output, whole, and when the close is
done that found the end open, this frame is the last thing written, or the time was over. -/
theorem Ledger.closes (h : d.Ledger admitted farewell) (c : d.Custody) {op : Stream.Closing}
    (runs : d.works t = some (.close op)) :
    ∃ farewell', (d.tried t (.close op)).Ledger admitted farewell' ∧
      (d.Parting severs farewell → (d.tried t (.close op)).Parting severs farewell') := by
  cases Stream.departed d.now t op d.fin with
  | already fresh fired same next =>
      subst fresh
      exact ⟨farewell, h.finds c runs fired same next⟩
  | queued first moves cut next result =>
      have hop : op = .fresh → d.fin.closed.fired = false := by
        rintro rfl
        exact first.elim And.right nofun
      have hsilent : farewell = [] := by
        refine h.silent c runs hop ?_
        rintro deadline rfl
        rcases first with ⟨hno, -⟩ | hno <;> cases hno
      refine ⟨farewell, h.holds c runs moves ?_, fun p => c.parting runs hop ?_ ?_⟩
      · rw [next]
        rintro w' ⟨⟩
        exact hsilent
      · exact fun hcut => Or.inl (p.whole h c runs hop (cut.symm.trans hcut))
      · rw [result]
        exact nofun
  | feeds f deadline e₁ goes moved moves cut next done =>
      have hop := open_of_goes goes
      have hsilent : farewell = [] := by
        refine h.silent c runs hop ?_
        rintro deadline' rfl
        cases goes
      have hfits : (Stream.Writing.feeding f).Fits d.fin := by
        obtain ⟨job, hjob, hdoes⟩ := c.jobs t _ runs
        obtain ⟨-, hf | hf⟩ := hdoes.goesClose goes
        · cases hf
          exact Nat.zero_le _
        · cases hf
      refine ⟨farewell, h.holds c runs moves ?_, fun p => c.parting runs hop ?_ ?_⟩
      · intro w' hnext
        obtain rfl := next w' hnext
        exact hsilent
      · exact fun hcut => Or.inl (p.whole h c runs hop (cut.symm.trans hcut))
      · intro r hr
        rcases done r hr with hcut | hno | ⟨late, hstalled⟩
        · exact Or.inl (p.whole h c runs hop hcut)
        · exact absurd hfits hno
        · exact Or.inr (Or.inr (c.gaveUp runs goes late hr hstalled))
  | puts op' deadline e₁ goes moved moves cut next done =>
      have hop := open_of_goes goes
      refine ⟨Frame.close.toBytes, h.parts c runs goes moves next, fun p => c.parting runs hop ?_ ?_⟩
      · intro hcut
        rcases cut hcut with hbefore | ⟨hempty, hnone⟩
        · exact Or.inl (p.whole h c runs hop hbefore)
        · exact Or.inr ⟨⟨rfl, hempty, hcut⟩, hnone⟩
      · intro r hr
        rcases done r hr with hbefore | ⟨hempty, hcut⟩ | ⟨late, hstalled⟩
        · exact Or.inl (p.whole h c runs hop hbefore)
        · exact Or.inr (Or.inl ⟨rfl, hempty, hcut⟩)
        · exact Or.inr (Or.inr (c.gaveUp runs goes late hr hstalled))

/-! ## Every step -/

/-- A receive has nothing to do with it. -/
theorem Ledger.receives (h : d.Ledger admitted farewell) (c : d.Custody) {op : Stream.Receiving}
    (runs : d.works t = some (.recv op)) :
    (d.tried t (.recv op)).Ledger admitted farewell ∧
      (d.Parting severs farewell → (d.tried t (.recv op)).Parting severs farewell) := by
  obtain ⟨job, hjob, hdoes⟩ := c.jobs t _ runs
  cases hdoes
  have hout := Stream.outgoing_recv t op d.fin
  have hoctets : (d.tried t (.recv op)).carried ++ (d.tried t (.recv op)).fin.output =
      d.carried ++ d.fin.output := by
    have hoe : (Stream.recv t op d.fin).state.output = d.fin.output :=
      congrArg Stream.Outgoing.output hout
    have hpe : (Stream.recv t op d.fin).state.outbound = d.fin.outbound :=
      congrArg Stream.Outgoing.pipe hout
    show d.carried ++ (Stream.recv t op d.fin).state.outbound.content.drop
      d.fin.outbound.content.length ++ (Stream.recv t op d.fin).state.output = _
    rw [hoe, hpe, List.drop_length, List.append_nil]
  have hnext (w' : Stream.Work) (hw' : (Stream.Work.recv op).next? d.now t d.fin = some w') :
      ∃ op', w' = .recv op' := by
    rw [Stream.Work.next?_recv] at hw'
    obtain ⟨op', -, rfl⟩ := Option.map_eq_some_iff.mp hw'
    exact ⟨op', rfl⟩
  constructor
  · refine h.keeps hoctets (congrArg Stream.Outgoing.limits hout) ?_ ?_
    · intro w' hw'
      obtain ⟨op', rfl⟩ := hnext w' hw'
      trivial
    · intro _ msg hno
      rw [hjob] at hno
      cases hno
  · intro p
    refine p.keeps ?_ (fun _ => congrArg Stream.Outgoing.output hout) rfl ?_ ?_
    · exact congrArg Pipe.cut (congrArg Stream.Outgoing.pipe hout)
    · rintro x hx rfl
      have hclose := (c.closers x hx).1
      rw [hjob] at hclose
      cases hclose
    · intro op' hw'
      obtain ⟨_, hno⟩ := hnext _ hw'
      cases hno

/-- A send leaves to the close what is the close's. -/
theorem Parting.sends (p : d.Parting severs farewell) (h : d.Ledger admitted farewell)
    (c : d.Custody) {op : Stream.Sending} (runs : d.works t = some (.send op)) :
    (d.tried t (.send op)).Parting severs farewell := by
  obtain ⟨job, hjob, hdoes⟩ := c.jobs t _ runs
  obtain ⟨hposted, hcut⟩ := Stream.posted d.now t op d.fin
  refine p.keeps hcut ?_ rfl ?_ ?_
  · intro hf
    have hfired : d.fin.closed.fired = true :=
      (h.farewell.resolve_left fun hnil => toBytes_ne_nil _ (hf.symm.trans hnil)).2
    cases hposted with
    | keeps moved moves still => exact still hfired
    | posts op' e₁ goes isOpen =>
        rw [hfired] at isOpen
        cases isOpen
  · rintro x hx rfl
    have hclose := (c.closers x hx).1
    rw [hjob] at hclose
    cases hclose
    cases hdoes
  · intro op' hw'
    rw [Stream.Work.next?_send] at hw'
    obtain ⟨_, -, hno⟩ := Option.map_eq_some_iff.mp hw'
    cases hno

theorem Ledger.begins (h : d.Ledger admitted farewell) (c : d.Custody) {job : Job}
    (fresh : d.jobs t = none) : Ledger { d with
      jobs := update d.jobs t (some job), works := update d.works t (some job.onStream) }
      admitted farewell := by
  refine ⟨h.octets, h.order, ?_, ?_, ?_, h.farewell⟩
  · intro a ha
    obtain ⟨hjob, hsize⟩ := h.jobs a ha
    have hne : a.1 ≠ t := by
      intro hno
      rw [hno, fresh] at hjob
      cases hjob
    exact ⟨(update_of_ne hne ..).trans hjob, hsize⟩
  · intro u w hu
    rcases update_eq_some.mp hu with ⟨rfl, hw⟩ | ⟨-, hu⟩
    · cases hw
      cases job <;> trivial
    · exact h.works u w hu
  · intro u msg hu hjob
    rcases update_eq_some.mp hjob with ⟨rfl, -⟩ | ⟨-, hjob⟩
    · have hsome := (c.done _ hu).1
      rw [fresh] at hsome
      cases hsome
    · exact h.delivered u msg hu hjob

/-- **What an end has put on its stream stays in order**, whatever happens. -/
theorem Ledger.step {d' : Desk} (h : d.Ledger admitted farewell) (c : d.Custody)
    (hstep : Step severs spoils d d') :
    ∃ admitted' farewell', d'.Ledger admitted' farewell' ∧
      (d.Parting severs farewell → d'.Parting severs farewell') := by
  cases hstep with
  | begins t job fresh stays =>
      refine ⟨admitted, farewell, h.begins c fresh, fun p => ⟨fun hcut => ?_, p.closers⟩⟩
      refine (p.cut hcut).imp_right (Or.imp_right fun hp => ⟨hp.1, fun u op hu => ?_⟩)
      rcases update_eq_some.mp hu with ⟨rfl, hw⟩ | ⟨-, hu⟩
      · cases job <;> cases hw
        rfl
      · exact hp.2 u op hu
  | tries t w runs =>
      cases w with
      | send op =>
          obtain ⟨admitted', h'⟩ := h.sends c runs
          exact ⟨admitted', farewell, h', fun p => p.sends h c runs⟩
      | recv op => exact ⟨admitted, farewell, h.receives c runs⟩
      | close op =>
          obtain ⟨farewell', h'⟩ := h.closes c runs
          exact ⟨admitted, farewell', h'⟩
  | leaves t w runs =>
      have hworks {u : Ticket} {w' : Stream.Work} (hu : update d.works t none u = some w') :
          d.works u = some w' := by
        rcases update_eq_some.mp hu with ⟨-, hno⟩ | ⟨-, hu⟩
        · cases hno
        · exact hu
      have houtput : (w.abandon t d.fin).1.output = d.fin.output := by cases w <;> rfl
      have hlimits : (w.abandon t d.fin).1.limits = d.fin.limits := by cases w <;> rfl
      have hfired : (w.abandon t d.fin).1.closed.fired = d.fin.closed.fired := by cases w <;> rfl
      have hcut : (w.abandon t d.fin).1.outbound.cut = d.fin.outbound.cut := by cases w <;> rfl
      have hparted : d.Parted farewell → farewell = Frame.close.toBytes ∧
          (w.abandon t d.fin).1.output = [] ∧ (w.abandon t d.fin).1.outbound.cut = true :=
        fun hp => ⟨hp.1, houtput.trans hp.2.1, hcut.trans hp.2.2⟩
      refine ⟨admitted, farewell, ⟨?_, h.order, ?_, fun u w' hu => h.works u w' (hworks hu),
        h.delivered, ?_⟩, fun p => ⟨fun hc => ?_, fun x hx r hr => ?_⟩⟩
      · exact (congrArg (d.carried ++ ·) houtput).trans h.octets
      · exact fun a ha => ⟨(h.jobs a ha).1, hlimits ▸ (h.jobs a ha).2⟩
      · exact h.farewell.imp_right fun hf => ⟨hf.1, hfired.trans hf.2⟩
      · exact (p.cut (hcut.symm.trans hc)).imp_right
          (Or.imp_right fun hp => ⟨hparted hp.1, fun u op hu => hp.2 u op (hworks hu)⟩)
      · exact (p.closers x hx r hr).imp_right (Or.imp_left hparted)
  | falls idle =>
      refine ⟨admitted, farewell,
        ⟨h.octets, h.order, h.jobs, h.works, h.delivered, h.farewell⟩, fun p => ?_⟩
      exact ⟨fun _ => Or.inr (Or.inl rfl), fun x hx r hr => (p.closers x hx r hr).imp_right
        (Or.imp_left fun hp => ⟨hp.1, hp.2.1, rfl⟩)⟩
  | around e bs haround =>
      rw [haround.same]
      refine ⟨admitted, farewell,
        ⟨h.octets, h.order, h.jobs, h.works, h.delivered, h.farewell⟩, fun p => ?_⟩
      have hparted : d.Parted farewell →
          farewell = Frame.close.toBytes ∧ d.fin.output = [] ∧ e.outbound.cut = true :=
        fun hp => ⟨hp.1, hp.2.1, haround.cut.trans hp.2.2⟩
      exact ⟨fun hc => (p.cut (haround.cut.symm.trans hc)).imp_right
          (Or.imp_right fun hp => ⟨hparted hp.1, hp.2⟩),
        fun x hx r hr => (p.closers x hx r hr).imp_right (Or.imp_left hparted)⟩
  | severs hs =>
      exact ⟨admitted, farewell, ⟨h.octets, h.order, h.jobs, h.works, h.delivered, h.farewell⟩,
        fun _ => ⟨fun _ => Or.inl hs, fun _ _ _ _ => Or.inl hs⟩⟩
  | spoils =>
      exact ⟨admitted, farewell, ⟨h.octets, h.order, h.jobs, h.works, h.delivered, h.farewell⟩,
        fun p => ⟨p.cut, p.closers⟩⟩
  | waits ms =>
      exact ⟨admitted, farewell, ⟨h.octets, h.order, h.jobs, h.works, h.delivered, h.farewell⟩,
        fun p => ⟨p.cut, p.closers⟩⟩

end Desk

end Bench

end PeerRpc
