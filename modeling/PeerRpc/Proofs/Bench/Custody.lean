import Mathlib.Data.List.Nodup
import PeerRpc.Proofs.Bench.Desk

/-!
# PeerRpc.Proofs.Bench.Custody -- who writes at a stream end

A task that writes holds the writer, so at most one task writes at a time, and it is the last one
that got the writer (`Desk.Custody`). A turn of a task either is one of a task that has the writer,
or leaves the writer where it is (`Stream.Served`); everything that is said here about who writes
follows from that. At most one close ever finds its end open, and only that one goes on to write.
-/

namespace PeerRpc

namespace Stream

variable {t : Ticket} {e : End} {w : Work}

/-- A task that has the writer and has begun to write. -/
def Work.Writes : Work → Prop
  | send (.writing _) => True
  | close (.writing _ _) => True
  | _ => False

theorem Work.not_obtains (h : w.Writes) (t : Ticket) (e : End) : w.obtains t e = false := by
  cases w with
  | send op =>
      cases op with
      | fresh msg => exact h.elim
      | locking msg => exact h.elim
      | writing op => rfl
  | recv op => rfl
  | close op =>
      cases op with
      | fresh => exact h.elim
      | locking => exact h.elim
      | writing op deadline => rfl

/-- What a turn of a task does to the writer of its end. -/
inductive Served (now : Nat) (t : Ticket) (w : Work) (e e' : End) (next? : Option Work) : Prop
  /-- The task has the writer, and keeps it unless it is done. -/
  | writes
      (has : w.obtains t e = true ∧ (∀ u, e.writeLock.holder = some u → u = t) ∨ w.Writes)
      (keeps : ∀ w', next? = some w' → w'.Writes ∧ e'.writeLock.holder = some t)
      (deadline : ∀ op' deadline, next? = some (.close (.writing op' deadline)) →
        w.obtains t e = true ∧ deadline = now + closeTimeout ∨
          ∃ op, w = .close (.writing op deadline)) : Served now t w e e' next?
  /-- The task has nothing to do with the writer, or waits for it. -/
  | rests (waits : w.obtains t e = false) (idle : ¬w.Writes)
      (same : e'.writeLock.holder = e.writeLock.holder)
      (later : ∀ w', next? = some w' → ¬w'.Writes) : Served now t w e e' next?

/-- Only a lock that is free is taken. -/
theorem holder_of_acquire {l : Lock} (h : (l.acquire t).holder = some t) (u : Ticket)
    (hu : l.holder = some u) : u = t := by
  unfold Lock.acquire at h
  rw [hu] at h
  exact Option.some.inj h

theorem Sending.Goes.has {op : Sending} {op' : Writing} {e₁ : End} (h : op.Goes t e op' e₁) :
    (Work.send op).obtains t e = true ∧ (∀ u, e.writeLock.holder = some u → u = t) ∨
      (Work.send op).Writes := by
  cases h with
  | fresh msg isOpen size held =>
      refine Or.inl ⟨?_, holder_of_acquire held⟩
      exact (Sending.Goes.fresh msg isOpen size held).obtains.resolve_right nofun
  | locking msg held =>
      exact Or.inl ⟨Lock.heldBy_eq_true.mpr held, fun u hu => Option.some.inj (hu.symm.trans held)⟩
  | writing op => exact Or.inr trivial

theorem Sending.Goes.holder {op : Sending} {op' : Writing} {e₁ : End} (h : op.Goes t e op' e₁)
    (hold : (Work.send op).Writes → e.writeLock.holder = some t) :
    e₁.writeLock.holder = some t := by
  cases h with
  | fresh msg isOpen size held => exact held
  | locking msg held => exact held
  | writing op => exact hold trivial

theorem Closing.Goes.has {now deadline : Nat} {op : Closing} {op' : Writing} {e₁ : End}
    (h : op.Goes now t e op' deadline e₁) :
    (Work.close op).obtains t e = true ∧ (∀ u, e.writeLock.holder = some u → u = t) ∨
      (Work.close op).Writes := by
  cases h with
  | fresh isOpen held =>
      refine Or.inl ⟨?_, holder_of_acquire held⟩
      have hgoes : Closing.Goes now t e .fresh _ _ _ := .fresh isOpen held
      exact (hgoes.obtains.resolve_right nofun).1
  | locking held =>
      exact Or.inl ⟨Lock.heldBy_eq_true.mpr held, fun u hu => Option.some.inj (hu.symm.trans held)⟩
  | writing op deadline => exact Or.inr trivial

theorem Closing.Goes.holder {now deadline : Nat} {op : Closing} {op' : Writing} {e₁ : End}
    (h : op.Goes now t e op' deadline e₁)
    (hold : (Work.close op).Writes → e.writeLock.holder = some t) :
    e₁.writeLock.holder = some t := by
  cases h with
  | fresh isOpen held => exact held
  | locking held => exact held
  | writing op deadline => exact hold trivial

/-- **What a turn does to the writer**, for each of the three operations. -/
theorem served (now : Nat) (t : Ticket) (e : End) (w : Work)
    (hold : w.Writes → e.writeLock.holder = some t) :
    Served now t w e (w.attempt now t e).state (w.next? now t e) := by
  cases w with
  | send op =>
      rw [Work.next?_send]
      show Served now t (.send op) e (send t op e).state _
      have hsent := sent t op e
      generalize (send t op e).state = e' at hsent ⊢
      generalize (send t op e).progress = r at hsent ⊢
      cases hsent with
      | refused msg fresh never same err =>
          subst fresh same
          exact .rests never id rfl nofun
      | queued msg first later lock holder same =>
          subst same
          refine .rests later ?_ holder ?_
          · rcases first with rfl | rfl <;> exact id
          · rintro w' ⟨⟩
            exact id
      | stopped op' e₁ goes fired same => exact .writes goes.has nofun nofun
      | writes op' op'' e₁ e₂ goes isOpen wrote same =>
          refine .writes goes.has ?_ nofun
          rintro w' ⟨⟩
          refine ⟨trivial, ?_⟩
          rw [same]
          exact (congrArg Lock.holder wrote.lock).trans (goes.holder hold)
      | delivers op' e₁ e₂ goes isOpen wrote same => exact .writes goes.has nofun nofun
      | fails op' e₁ e₂ err goes isOpen wrote same => exact .writes goes.has nofun nofun
  | recv op =>
      rw [Work.next?_recv]
      show Served now t (.recv op) e (recv t op e).state _
      have hlock : (recv t op e).state.writeLock = e.writeLock :=
        congrArg Outgoing.lock (outgoing_recv t op e)
      refine .rests rfl id (congrArg Lock.holder hlock) ?_
      intro w' hw'
      obtain ⟨op', -, rfl⟩ := Option.map_eq_some_iff.mp hw'
      exact id
  | close op =>
      rw [Work.next?_close]
      show Served now t (.close op) e (close now t op e).state _
      have hcloses := closes now t op e
      generalize (close now t op e).state = e' at hcloses ⊢
      generalize (close now t op e).progress = r at hcloses ⊢
      cases hcloses with
      | already fresh fired same =>
          subst fresh same
          refine .rests ?_ id rfl nofun
          show (!e'.closed.fired && _) = false
          rw [fired]
          rfl
      | queued closed lock holder later first same =>
          subst same
          refine .rests later ?_ holder ?_
          · rcases first with ⟨rfl, -⟩ | ⟨rfl, -⟩ <;> exact id
          · rintro w' ⟨⟩
            exact id
      | writes op' op'' deadline e₁ goes wrote early =>
          refine .writes goes.has ?_ ?_
          · rintro w' ⟨⟩
            exact ⟨trivial, (congrArg Lock.holder wrote.lock).trans (goes.holder hold)⟩
          · rintro op₂ deadline' ⟨⟩
            rcases goes.obtains with ⟨hgets, hdeadline, -⟩ | hop
            · exact Or.inl ⟨hgets, hdeadline⟩
            · exact Or.inr ⟨op', congrArg Work.close hop⟩
      | givesUp op' op'' deadline e₁ e₂ goes wrote late same => exact .writes goes.has nofun nofun
      | ends op' deadline e₁ e₂ r goes wrote same => exact .writes goes.has nofun nofun

end Stream

namespace Bench

/-! ## Stages -/

/-- The stages of a task that was started for a job. -/
inductive Job.Does : Job → Stream.Work → Prop
  | fresh (msg : Bytes) : Does (.send msg) (.send (.fresh msg))
  | locking (msg : Bytes) : Does (.send msg) (.send (.locking msg))
  | feeding (msg : Bytes) : Does (.send msg) (.send (.writing (.feeding (.message msg))))
  | flushing (msg : Bytes) : Does (.send msg) (.send (.writing .flushing))
  | receiving (op : Stream.Receiving) : Does .recv (.recv op)
  | closeFresh : Does .close (.close .fresh)
  | closeLocking : Does .close (.close .locking)
  | closeFeeding (deadline : Nat) : Does .close (.close (.writing (.feeding .close) deadline))
  | ending (deadline : Nat) : Does .close (.close (.writing .ending deadline))

theorem Job.does_onStream (job : Job) : job.Does job.onStream := by
  cases job with
  | send msg => exact .fresh msg
  | recv => exact .receiving .fresh
  | close => exact .closeFresh

variable {job : Job} {w w' : Stream.Work} {t : Ticket} {e : Stream.End}

/-- What a send that has the writer writes on from. -/
theorem Job.Does.goes {op : Stream.Sending} {op' : Stream.Writing} {e₁ : Stream.End}
    (h : job.Does (.send op)) (hgoes : op.Goes t e op' e₁) :
    ∃ msg, job = .send msg ∧ (op' = .feeding (.message msg) ∨ op' = .flushing) := by
  cases h with
  | fresh msg =>
      cases hgoes
      exact ⟨msg, rfl, Or.inl rfl⟩
  | locking msg =>
      cases hgoes
      exact ⟨msg, rfl, Or.inl rfl⟩
  | feeding msg =>
      cases hgoes
      exact ⟨msg, rfl, Or.inl rfl⟩
  | flushing msg =>
      cases hgoes
      exact ⟨msg, rfl, Or.inr rfl⟩

/-- What a close that has the writer writes on from. -/
theorem Job.Does.goesClose {now deadline : Nat} {op : Stream.Closing} {op' : Stream.Writing}
    {e₁ : Stream.End} (h : job.Does (.close op)) (hgoes : op.Goes now t e op' deadline e₁) :
    job = .close ∧ (op' = .feeding .close ∨ op' = .ending) := by
  cases h with
  | closeFresh =>
      cases hgoes
      exact ⟨rfl, Or.inl rfl⟩
  | closeLocking =>
      cases hgoes
      exact ⟨rfl, Or.inl rfl⟩
  | closeFeeding =>
      cases hgoes
      exact ⟨rfl, Or.inl rfl⟩
  | ending =>
      cases hgoes
      exact ⟨rfl, Or.inr rfl⟩

/-- A turn takes a task from one of its stages to another. -/
theorem Job.Does.attempt {now : Nat} (h : job.Does w)
    (hnext : (w.next? now t e) = some w') : job.Does w' := by
  cases w with
  | send op =>
      have hsent := Stream.sent t op e
      rw [Stream.Work.next?_send] at hnext
      generalize (Stream.send t op e).state = e' at hsent
      generalize (Stream.send t op e).progress = r at hsent hnext
      cases hsent with
      | refused msg fresh never same err => cases hnext
      | queued msg first later lock holder same =>
          cases hnext
          rcases first with rfl | rfl <;> cases h <;> exact .locking msg
      | stopped op' e₁ goes fired same => cases hnext
      | writes op' op'' e₁ e₂ goes isOpen wrote same =>
          cases hnext
          obtain ⟨msg, rfl, hop'⟩ := h.goes goes
          cases wrote with
          | feeds f feeding =>
              rcases hop' with rfl | rfl
              · exact .feeding msg
              · cases feeding
          | waits fits => exact .flushing msg
      | delivers op' e₁ e₂ goes isOpen wrote same => cases hnext
      | fails op' e₁ e₂ err goes isOpen wrote same => cases hnext
  | recv op =>
      cases h
      rw [Stream.Work.next?_recv] at hnext
      obtain ⟨op', -, rfl⟩ := Option.map_eq_some_iff.mp hnext
      exact .receiving op'
  | close op =>
      have hcloses := Stream.closes now t op e
      rw [Stream.Work.next?_close] at hnext
      generalize (Stream.close now t op e).state = e' at hcloses
      generalize (Stream.close now t op e).progress = r at hcloses hnext
      cases hcloses with
      | already fresh fired same => cases hnext
      | queued closed lock holder later first same =>
          cases hnext
          cases h <;> exact .closeLocking
      | writes op' op'' deadline e₁ goes wrote early =>
          cases hnext
          obtain ⟨rfl, hop'⟩ := h.goesClose goes
          cases wrote with
          | feeds f feeding =>
              rcases hop' with rfl | rfl
              · exact .closeFeeding deadline
              · cases feeding
          | waits fits => exact .ending deadline
      | givesUp op' op'' deadline e₁ e₂ goes wrote late same => cases hnext
      | ends op' deadline e₁ e₂ r goes wrote same => cases hnext

/-! ## Custody -/

namespace Desk

open Function (update update_self update_of_ne)

/-- Who writes at an end, and who closes it. -/
structure Custody (d : Desk) : Prop where
  /-- Every task is at a stage of its job. -/
  jobs : ∀ t w, d.works t = some w → ∃ job, d.jobs t = some job ∧ job.Does w
  /-- A task that writes has the writer, and no task got it after that one. -/
  writer : ∀ t w, d.works t = some w → w.Writes → d.fin.writeLock.holder = some t ∧
    ∃ since, d.obtained.getLast? = some (t, since) ∧
      ∀ op deadline, w = .close (.writing op deadline) → deadline = since + Stream.closeTimeout
  /-- No task gets the writer twice, since from then on it writes. -/
  nodup : (d.obtained.map Prod.fst).Nodup
  spoken : ∀ x ∈ d.obtained, (d.jobs x.1).isSome = true ∧ ∀ w, d.works x.1 = some w → w.Writes
  /-- The end is closed by one close at most, and only that one goes on. -/
  closed : d.closers = [] ∨ d.fin.closed.fired = true ∧ ∃ x, d.closers = [x]
  closing : ∀ t op, d.works t = some (.close op) → op ≠ .fresh →
    d.fin.closed.fired = true ∧ ∃ since, d.closers = [(t, since)]
  closers : ∀ x ∈ d.closers, d.jobs x.1 = some .close ∧ d.works x.1 ≠ some (.close .fresh)
  /-- A task that is done is gone. -/
  done : ∀ x ∈ d.results, (d.jobs x.1).isSome = true ∧ d.works x.1 = none
  /-- There is no task on an end that was let go of. -/
  resting : d.gone = true → ∀ t, d.works t = none

variable {d : Desk} {severs spoils : Prop}

theorem custody_ofLimits (l : ChannelLimits) (capacity : Nat) : (ofLimits l capacity).Custody where
  jobs := nofun
  writer := nofun
  nodup := List.nodup_nil
  spoken := nofun
  closed := Or.inl rfl
  closing := nofun
  closers := nofun
  done := nofun
  resting := nofun

/-- A task that has the writer is the only one that writes. -/
theorem Custody.alone (h : d.Custody) {t u : Ticket} {w w' : Stream.Work}
    (ht : d.works t = some w) (hu : d.works u = some w') (hwrites : w'.Writes)
    (has : w.obtains t d.fin = true ∧ (∀ v, d.fin.writeLock.holder = some v → v = t) ∨ w.Writes) :
    u = t := by
  obtain ⟨hholder, -⟩ := h.writer u w' hu hwrites
  rcases has with ⟨-, hfree⟩ | hw
  · exact hfree u hholder
  · obtain ⟨hholder', -⟩ := h.writer t w ht hw
    exact Option.some.inj (hholder.symm.trans hholder')

/-- Tasks that are at some stage were started. -/
theorem Custody.started (h : d.Custody) {t : Ticket} {w : Stream.Work} (ht : d.works t = some w) :
    d.jobs t ≠ none := by
  obtain ⟨job, hjob, -⟩ := h.jobs t w ht
  rw [hjob]
  exact nofun

theorem Custody.begins (h : d.Custody) {t : Ticket} (job : Job) (fresh : d.jobs t = none)
    (stays : d.gone = false) : Custody { d with
      jobs := update d.jobs t (some job), works := update d.works t (some job.onStream) } := by
  have hidle : ¬job.onStream.Writes := by cases job <;> exact id
  have hfresh : ∀ op, job.onStream = .close op → op = .fresh := by
    intro op hop
    cases job <;> cases hop
    rfl
  have hold {u : Ticket} (hu : (d.jobs u).isSome = true) :
      update d.jobs t (some job) u = d.jobs u ∧
        update d.works t (some job.onStream) u = d.works u := by
    have hne : u ≠ t := by
      rintro rfl
      rw [fresh] at hu
      cases hu
    exact ⟨update_of_ne hne .., update_of_ne hne ..⟩
  refine ⟨?_, ?_, h.nodup, ?_, h.closed, ?_, ?_, ?_, ?_⟩
  · intro u w hu
    rcases update_eq_some.mp hu with ⟨rfl, hw⟩ | ⟨hne, hu⟩
    · cases hw
      exact ⟨job, update_self .., job.does_onStream⟩
    · obtain ⟨job', hjob, hdoes⟩ := h.jobs u w hu
      exact ⟨job', (update_of_ne hne ..).trans hjob, hdoes⟩
  · intro u w hu hw
    rcases update_eq_some.mp hu with ⟨rfl, hjob⟩ | ⟨hne, hu⟩
    · cases hjob
      exact absurd hw hidle
    · exact h.writer u w hu hw
  · intro x hx
    obtain ⟨hjob, hwrites⟩ := h.spoken x hx
    exact ⟨(congrArg Option.isSome (hold hjob).1).trans hjob, fun w hw => hwrites w ((hold hjob).2.symm.trans hw)⟩
  · intro u op hu hop
    rcases update_eq_some.mp hu with ⟨rfl, hw⟩ | ⟨hne, hu⟩
    · exact absurd (hfresh op (Option.some.inj hw)) hop
    · exact h.closing u op hu hop
  · intro x hx
    obtain ⟨hjob, hworks⟩ := h.closers x hx
    have hsome : (d.jobs x.1).isSome = true := by rw [hjob]; rfl
    exact ⟨(hold hsome).1.trans hjob, fun hw => hworks ((hold hsome).2.symm.trans hw)⟩
  · intro x hx
    obtain ⟨hjob, hworks⟩ := h.done x hx
    exact ⟨(congrArg Option.isSome (hold hjob).1).trans hjob, (hold hjob).2.trans hworks⟩
  · intro hgone
    exact absurd hgone (by rw [stays]; exact nofun)

/-- A task goes. -/
theorem Custody.leaves (h : d.Custody) {t : Ticket} (w : Stream.Work) :
    Custody { d with fin := (w.abandon t d.fin).1, works := update d.works t none } := by
  have hkeep {u : Ticket} {w' : Stream.Work} (hu : update d.works t none u = some w') :
      u ≠ t ∧ d.works u = some w' := by
    rcases update_eq_some.mp hu with ⟨-, hno⟩ | hu
    · cases hno
    · exact hu
  have hnone {u : Ticket} (hu : d.works u = none) : update d.works t none u = none := by
    cases hw : update d.works t none u with
    | none => rfl
    | some w' =>
        rw [(hkeep hw).2] at hu
        cases hu
  have hfired : (w.abandon t d.fin).1.closed.fired = d.fin.closed.fired := by cases w <;> rfl
  refine ⟨?_, ?_, h.nodup, ?_, ?_, ?_, ?_, ?_, ?_⟩
  · intro u w' hu
    exact h.jobs u w' (hkeep hu).2
  · intro u w' hu hw
    obtain ⟨htu, hu⟩ := hkeep hu
    obtain ⟨hholder, hlast⟩ := h.writer u w' hu hw
    refine ⟨?_, hlast⟩
    -- another task has the writer, so it is not handed on
    have hleave : (d.fin.writeLock.leave t).1.holder = d.fin.writeLock.holder := by
      unfold Lock.leave
      rw [if_neg]
      rw [Lock.heldBy_eq_true, hholder]
      exact fun hno => htu (Option.some.inj hno)
    cases w with
    | send op => exact hleave.trans hholder
    | recv op => exact hholder
    | close op => exact hleave.trans hholder
  · intro x hx
    obtain ⟨hjob, hwrites⟩ := h.spoken x hx
    exact ⟨hjob, fun w' hw' => hwrites w' (hkeep hw').2⟩
  · rw [hfired]
    exact h.closed
  · intro u op hu hop
    rw [hfired]
    exact h.closing u op (hkeep hu).2 hop
  · intro x hx
    obtain ⟨hjob, hworks⟩ := h.closers x hx
    exact ⟨hjob, fun hno => hworks (hkeep hno).2⟩
  · intro x hx
    obtain ⟨hjob, hworks⟩ := h.done x hx
    exact ⟨hjob, hnone hworks⟩
  · exact fun hgone u => hnone (h.resting hgone u)

/-! ## A turn, one fact after the other -/

section Turn

variable {t : Ticket} {w : Stream.Work}

theorem Custody.served (h : d.Custody) (runs : d.works t = some w) :
    Stream.Served d.now t w d.fin (d.tried t w).fin (w.next? d.now t d.fin) :=
  Stream.served d.now t d.fin w fun hw => (h.writer t w runs hw).1

theorem Custody.jobs_tried (h : d.Custody) (runs : d.works t = some w) :
    ∀ u w', (d.tried t w).works u = some w' →
      ∃ job, (d.tried t w).jobs u = some job ∧ job.Does w' := by
  intro u w' hu
  rcases update_eq_some.mp hu with ⟨rfl, hnext⟩ | ⟨hne, hu⟩
  · obtain ⟨job, hjob, hdoes⟩ := h.jobs u w runs
    exact ⟨job, hjob, hdoes.attempt hnext⟩
  · exact h.jobs u w' hu

/-- A task that writes on after its turn has the writer, since now or since before. -/
theorem Custody.writer_own (h : d.Custody) (runs : d.works t = some w) {w' : Stream.Work}
    (hnext : w.next? d.now t d.fin = some w') (hw : w'.Writes) :
    (d.tried t w).fin.writeLock.holder = some t ∧
      ∃ since, (d.tried t w).obtained.getLast? = some (t, since) ∧
        ∀ op deadline, w' = .close (.writing op deadline) →
          deadline = since + Stream.closeTimeout := by
  cases h.served runs with
  | writes has keeps deadline =>
      refine ⟨(keeps w' hnext).2, ?_⟩
      cases hobtains : w.obtains t d.fin with
      | true =>
          refine ⟨d.now, ?_, ?_⟩
          · rw [obtained_of_obtains hobtains, List.getLast?_concat]
          · rintro op at_ rfl
            rcases deadline op at_ hnext with ⟨-, hat⟩ | ⟨op', rfl⟩
            · exact hat
            · exact absurd hobtains nofun
      | false =>
          have hwrites : w.Writes := has.resolve_left fun hno => by
            rw [hobtains] at hno
            exact nomatch hno.1
          obtain ⟨-, since, hlast, hsince⟩ := h.writer t w runs hwrites
          refine ⟨since, ?_, ?_⟩
          · rw [obtained_of_not hobtains, hlast]
          · rintro op at_ rfl
            rcases deadline op at_ hnext with ⟨hno, -⟩ | ⟨op', hop⟩
            · rw [hobtains] at hno
              cases hno
            · exact hsince op' at_ hop
  | rests waits idle same later => exact absurd hw (later w' hnext)

theorem Custody.writer_tried (h : d.Custody) (runs : d.works t = some w) :
    ∀ u w', (d.tried t w).works u = some w' → w'.Writes →
      (d.tried t w).fin.writeLock.holder = some u ∧
        ∃ since, (d.tried t w).obtained.getLast? = some (u, since) ∧
          ∀ op deadline, w' = .close (.writing op deadline) →
            deadline = since + Stream.closeTimeout := by
  intro u w' hu hw
  rcases update_eq_some.mp hu with ⟨rfl, hnext⟩ | ⟨hne, hu⟩
  · exact h.writer_own runs hnext hw
  · cases h.served runs with
    | writes has keeps deadline => exact absurd (h.alone runs hu hw has) hne
    | rests waits idle same later =>
        obtain ⟨hholder, hlast⟩ := h.writer u w' hu hw
        rw [obtained_of_not waits]
        exact ⟨same.trans hholder, hlast⟩

/-- A task that gets the writer has not had it before. -/
theorem Custody.not_obtained (h : d.Custody) (runs : d.works t = some w)
    (hobtains : w.obtains t d.fin = true) : t ∉ d.obtained.map Prod.fst := by
  intro hmem
  obtain ⟨x, hx, rfl⟩ := List.mem_map.mp hmem
  have hno := Stream.Work.not_obtains ((h.spoken x hx).2 w runs) x.1 d.fin
  rw [hobtains] at hno
  cases hno

theorem Custody.nodup_tried (h : d.Custody) (runs : d.works t = some w) :
    ((d.tried t w).obtained.map Prod.fst).Nodup := by
  cases hobtains : w.obtains t d.fin with
  | true =>
      rw [obtained_of_obtains hobtains, List.map_append, List.nodup_append]
      refine ⟨h.nodup, List.nodup_singleton t, ?_⟩
      rintro u hu v hv rfl
      obtain rfl : u = t := List.mem_singleton.mp hv
      exact h.not_obtained runs hobtains hu
  | false =>
      rw [obtained_of_not hobtains]
      exact h.nodup

/-- A task that has got the writer, now or before, writes on. -/
theorem Custody.writes_on (h : d.Custody) (runs : d.works t = some w)
    (hhas : (∃ since, (t, since) ∈ d.obtained) ∨ w.obtains t d.fin = true) {w' : Stream.Work}
    (hnext : w.next? d.now t d.fin = some w') : w'.Writes := by
  cases h.served runs with
  | writes has keeps deadline => exact (keeps w' hnext).1
  | rests waits idle same later =>
      rcases hhas with ⟨since, hsince⟩ | hobtains
      · exact absurd ((h.spoken _ hsince).2 w runs) idle
      · rw [waits] at hobtains
        cases hobtains

theorem Custody.spoken_tried (h : d.Custody) (runs : d.works t = some w) :
    ∀ x ∈ (d.tried t w).obtained, ((d.tried t w).jobs x.1).isSome = true ∧
      ∀ w', (d.tried t w).works x.1 = some w' → w'.Writes := by
  intro x hx
  have hmem : x ∈ d.obtained ∨ x = (t, d.now) ∧ w.obtains t d.fin = true := by
    cases hobtains : w.obtains t d.fin with
    | true =>
        rw [obtained_of_obtains hobtains] at hx
        exact (List.mem_append.mp hx).imp_right fun hx => ⟨List.mem_singleton.mp hx, rfl⟩
    | false =>
        rw [obtained_of_not hobtains] at hx
        exact Or.inl hx
  rcases hmem with hx | ⟨rfl, hobtains⟩
  · refine ⟨(h.spoken x hx).1, fun w' hw' => ?_⟩
    rcases update_eq_some.mp hw' with ⟨hxt, hnext⟩ | ⟨hne, hu⟩
    · exact h.writes_on runs (Or.inl ⟨x.2, hxt ▸ hx⟩) hnext
    · exact (h.spoken x hx).2 w' hu
  · refine ⟨Option.isSome_iff_ne_none.mpr (h.started runs), fun w' hw' => ?_⟩
    rcases update_eq_some.mp hw' with ⟨-, hnext⟩ | ⟨hne, -⟩
    · exact h.writes_on runs (Or.inr hobtains) hnext
    · exact absurd rfl hne

/-- Nobody closes an end that is closed. -/
theorem Custody.marks_tried (h : d.Custody) (hm : w.marks d.fin = true) :
    (d.tried t w).fin.closed.fired = true ∧ (d.tried t w).closers = [(t, d.now)] := by
  obtain ⟨rfl, isOpen⟩ := Stream.marks_iff.mp hm
  have hnil : d.closers = [] := h.closed.resolve_right fun hno => by
    rw [isOpen] at hno
    exact nomatch hno.1
  refine ⟨Stream.fired_close d.now t .fresh fun hno => absurd rfl hno, ?_⟩
  rw [closers_of_marks hm, hnil]
  rfl

theorem Custody.closed_tried (h : d.Custody) : (d.tried t w).closers = [] ∨
    (d.tried t w).fin.closed.fired = true ∧ ∃ x, (d.tried t w).closers = [x] := by
  cases hm : w.marks d.fin with
  | true => exact Or.inr ⟨(h.marks_tried hm).1, _, (h.marks_tried hm).2⟩
  | false =>
      rw [closers_of_not hm]
      exact h.closed.imp_right fun hc => ⟨Stream.fired_attempt d.now t w hc.1, hc.2⟩

theorem Custody.closing_tried (h : d.Custody) (runs : d.works t = some w) :
    ∀ u op, (d.tried t w).works u = some (.close op) → op ≠ .fresh →
      (d.tried t w).fin.closed.fired = true ∧ ∃ since, (d.tried t w).closers = [(u, since)] := by
  intro u op hu hop
  -- a close that went on before its turn, or beside it, is the one that closed the end
  have hbefore {op' : Stream.Closing} (hm : w.marks d.fin = false)
      (hu : d.works u = some (.close op')) (hop' : op' ≠ .fresh) :
      (d.tried t w).fin.closed.fired = true ∧ ∃ since, (d.tried t w).closers = [(u, since)] := by
    obtain ⟨hc, hclosers⟩ := h.closing u op' hu hop'
    rw [closers_of_not hm]
    exact ⟨Stream.fired_attempt d.now t w hc, hclosers⟩
  rcases update_eq_some.mp hu with ⟨rfl, hnext⟩ | ⟨hne, hu⟩
  · rcases (Stream.next?_eq_close hnext).2 with hm | ⟨op', rfl, hop'⟩
    · exact ⟨(h.marks_tried hm).1, _, (h.marks_tried hm).2⟩
    · have hm : Stream.Work.marks d.fin (.close op') = false := by
        cases op' with
        | fresh => exact absurd rfl hop'
        | locking => rfl
        | writing op deadline => rfl
      exact hbefore hm runs hop'
  · have hm : w.marks d.fin = false := by
      by_contra hno
      have hopen := (Stream.marks_iff.mp ((Bool.not_eq_false _).mp hno)).2
      rw [(h.closing u op hu hop).1] at hopen
      cases hopen
    exact hbefore hm hu hop

theorem Custody.closers_tried (h : d.Custody) (runs : d.works t = some w) :
    ∀ x ∈ (d.tried t w).closers, (d.tried t w).jobs x.1 = some .close ∧
      (d.tried t w).works x.1 ≠ some (.close .fresh) := by
  intro x hx
  cases hm : w.marks d.fin with
  | true =>
      rw [(h.marks_tried hm).2] at hx
      obtain rfl := List.mem_singleton.mp hx
      obtain ⟨rfl, -⟩ := Stream.marks_iff.mp hm
      obtain ⟨job, hclose, hdoes⟩ := h.jobs t _ runs
      cases hdoes
      refine ⟨hclose, fun hno => ?_⟩
      rcases update_eq_some.mp hno with ⟨-, hnext⟩ | ⟨hne, -⟩
      · exact (Stream.next?_eq_close hnext).1 rfl
      · exact hne rfl
  | false =>
      rw [closers_of_not hm] at hx
      obtain ⟨hj, hworks⟩ := h.closers x hx
      refine ⟨hj, fun hno => ?_⟩
      rcases update_eq_some.mp hno with ⟨-, hnext⟩ | ⟨-, hu⟩
      · exact (Stream.next?_eq_close hnext).1 rfl
      · exact hworks hu

theorem Custody.done_tried (h : d.Custody) (runs : d.works t = some w) :
    ∀ x ∈ (d.tried t w).results, ((d.tried t w).jobs x.1).isSome = true ∧
      (d.tried t w).works x.1 = none := by
  intro x hx
  rcases List.mem_append.mp hx with hx | hx
  · obtain ⟨r, hr, rfl⟩ := Option.map_eq_some_iff.mp (Option.mem_toList.mp hx)
    have hnext : w.next? d.now t d.fin = none :=
      Stream.Work.next?_eq_none.mpr (Option.isSome_iff_exists.mpr ⟨r, hr⟩)
    exact ⟨Option.isSome_iff_ne_none.mpr (h.started runs), (update_self ..).trans hnext⟩
  · obtain ⟨hj, hworks⟩ := h.done x hx
    have hne : x.1 ≠ t := by
      intro hno
      rw [hno, runs] at hworks
      cases hworks
    exact ⟨hj, (update_of_ne hne ..).trans hworks⟩

/-- **A task takes its turn.** -/
theorem Custody.tries (h : d.Custody) (runs : d.works t = some w) : (d.tried t w).Custody where
  jobs := h.jobs_tried runs
  writer := h.writer_tried runs
  nodup := h.nodup_tried runs
  spoken := h.spoken_tried runs
  closed := h.closed_tried
  closing := h.closing_tried runs
  closers := h.closers_tried runs
  done := h.done_tried runs
  resting hgone := by
    have hnone := h.resting hgone t
    rw [runs] at hnone
    cases hnone

end Turn

/-! ## Every step -/

/-- **Who writes at an end stays in order**, whatever happens. -/
theorem Custody.step {d' : Desk} (h : d.Custody) (hstep : Step severs spoils d d') :
    d'.Custody := by
  cases hstep with
  | begins t job fresh stays => exact h.begins job fresh stays
  | tries t w runs => exact h.tries runs
  | leaves t w runs => exact h.leaves w
  | falls idle =>
      exact ⟨h.jobs, h.writer, h.nodup, h.spoken, h.closed, h.closing, h.closers, h.done,
        fun _ => idle⟩
  | around e bs haround =>
      rw [haround.same]
      exact ⟨h.jobs, h.writer, h.nodup, h.spoken, h.closed, h.closing, h.closers, h.done, h.resting⟩
  | severs =>
      exact ⟨h.jobs, h.writer, h.nodup, h.spoken, h.closed, h.closing, h.closers, h.done, h.resting⟩
  | spoils =>
      exact ⟨h.jobs, h.writer, h.nodup, h.spoken, h.closed, h.closing, h.closers, h.done, h.resting⟩
  | waits ms =>
      exact ⟨h.jobs, h.writer, h.nodup, h.spoken, h.closed, h.closing, h.closers, h.done, h.resting⟩

end Desk

end Bench

end PeerRpc
