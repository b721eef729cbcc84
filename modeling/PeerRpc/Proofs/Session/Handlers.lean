import PeerRpc.Proofs.Session.Calls

/-!
# PeerRpc.Proofs.Session.Handlers -- the runs of handlers of a session are the runs of a duo

A handler that goes on makes calls and looks at them, and nothing else of what it does concerns an
endpoint (`Shows.perform`). When it ends the host notes its outcome and ends the run at once, and a
run that is told to stop and may be aborted is ended without an outcome of its own (`Shows.finish`).
-/

namespace PeerRpc

namespace Session

variable {w w' : Session} {d : Duo Service} {s : Side} {t : Ticket} {run : Run Service}

/-! ## Whose ticket it is -/

theorem Owns.of_eq (h : w.Owns s t) (htasks : w'.tasks = w.tasks)
    (hnext : w'.nextTicket = w.nextTicket) : w'.Owns s t :=
  ⟨hnext ▸ h.used, htasks ▸ h.side⟩

theorem Owns.setHolds (h : w.Owns s t) (u : Ticket) (holds : Bool) :
    (w.modifyTask u fun task => { task with holds := holds }).Owns s t := by
  refine ⟨h.used, fun y hy hyt => ?_⟩
  obtain ⟨⟨u', task⟩, hx, rfl⟩ := List.mem_map.mp hy
  dsimp only at hyt ⊢
  split at hyt
  · next hu =>
      rw [if_pos hu]
      exact h.side (u', task) hx hyt
  · next hu =>
      rw [if_neg hu]
      exact h.side _ hx hyt

theorem Owns.atEndpoint (h : w.Owns s t) (s' : Side)
    (f : Endpoint Service → Endpoint.Step Service) : (w.atEndpoint s' f).Owns s t := by
  unfold Session.atEndpoint
  split
  · exact h
  · exact h.take s' _

theorem Owns.release (h : w.Owns s t) (s' : Side) : (w.release s').Owns s t := by
  have hclosed := h.atEndpoint s' Endpoint.close
  unfold Session.release
  split
  · exact h
  · dsimp only
    split
    · exact hclosed
    · split
      · exact hclosed
      · exact hclosed.of_eq (tasks_modifyParty _ s' _) (nextTicket_modifyParty _ s' _)

theorem Owns.invoke (h : w.Owns s t) (s' : Side) (i : Identifier) (method : String)
    (args : List Value) : (w.invoke s' i method args).1.Owns s t := by
  unfold Session.invoke
  split
  · exact h
  · split
    · exact h
    · unfold Session.request
      split
      · exact h
      · exact h.take s' _

theorem Owns.pollCall (h : w.Owns s t) (s' : Side) (call : Call) :
    (w.pollCall s' call).1.Owns s t := by
  unfold Session.pollCall
  split
  · exact h
  · exact h.take s' _

theorem Owns.abandon (h : w.Owns s t) (s' : Side) (u : Ticket) (pause : Pause) :
    (w.abandon u s' pause).Owns s t := by
  cases pause with
  | gate name next => exact h.of_eq rfl rfl
  | reply call next => exact h.atEndpoint s' _
  | _ => exact h

/-! ## What a handler asks for -/

/-- A session after a turn of a handler, with what has become of the run. -/
structure Goes (x : Session × Came) (s : Side) (t : Ticket) (d : Duo Service) : Prop where
  shows : x.1.Shows d
  owns : x.1.Owns s t
  knows : ∀ pause, x.2 = .inl pause → ∀ c ∈ pause.call?, (d.host s).Knows c
  own : ∀ o, x.2 = .inr o → o.isOwn = true

/-- A run that waits, but not for a call. -/
theorem Goes.waits (h : w.Shows d) (hown : w.Owns s t) {pause : Pause}
    (hpause : pause.call? = none) : Goes (w, .inl pause) s t d := by
  refine ⟨h, hown, ?_, fun _ ho => absurd ho Sum.inl_ne_inr⟩
  intro p hp c hc
  obtain rfl := Sum.inl.inj hp
  rw [hpause] at hc
  cases hc

/-- A run that waits for a call. -/
theorem Goes.awaits (h : w.Shows d) (hown : w.Owns s t) {call : Call} (hk : (d.host s).Knows call)
    (next : CallResult → Activity) : Goes (w, .inl (.reply call next)) s t d := by
  refine ⟨h, hown, ?_, fun _ ho => absurd ho Sum.inl_ne_inr⟩
  intro p hp c hc
  obtain rfl := Sum.inl.inj hp
  obtain rfl := Option.some.inj hc
  exact hk

/-- A run whose handler has ended. -/
theorem Goes.ends (h : w.Shows d) (hown : w.Owns s t) {o : Outcome} (ho : o.isOwn = true) :
    Goes (w, .inr o) s t d := by
  refine ⟨h, hown, fun _ hp => absurd hp Sum.inr_ne_inl, ?_⟩
  intro o' ho'
  obtain rfl := Sum.inr.inj ho'
  exact ho

theorem same_setPermits (name : String) (p : Permits) (w : Session) :
    w.Same (w.setPermits name p) := ⟨rfl, fun _ => rfl, rfl, rfl, rfl, rfl⟩

/-- **A handler goes on** until it waits or ends. -/
theorem Shows.perform (serial : Nat) (a : Activity) (h : w.Shows d) (hown : w.Owns s t) :
    d.Leads (Goes (Session.perform t s serial a w) s t) := by
  -- along the activity: the session and the duo are those that the handler has come to so far
  induction a generalizing w d with
  | finish result => cases result <;> exact Duo.Leads.here (.ends h hown rfl)
  | panic message => exact Duo.Leads.here (.ends h hown rfl)
  | log line next ih =>
      refine ih (h.same ?_) (hown.of_eq rfl rfl)
      exact ⟨rfl, fun _ => rfl, rfl, rfl, rfl, rfl⟩
  | askStopped next ih => exact ih _ h hown
  | untilStopped next ih =>
      unfold Session.perform
      split
      · exact ih h hown
      · exact Duo.Leads.here (.waits h hown rfl)
  | forever => exact Duo.Leads.here (.waits h hown rfl)
  | sleep ms next ih =>
      unfold Session.perform
      split
      · exact ih h hown
      · exact Duo.Leads.here (.waits h hown rfl)
  | gate name next ih =>
      unfold Session.perform
      split
      · next p _ => exact ih (h.same (same_setPermits name p w)) (hown.of_eq rfl rfl)
      · next p _ =>
          have hset := h.same (same_setPermits name p w)
          exact Duo.Leads.here (.waits hset (hown.of_eq rfl rfl) rfl)
  | takeHandle next ih =>
      unfold Session.perform
      split
      · exact ih true (h.setHolds t true) (hown.setHolds t true)
      · exact ih false h hown
  | call target method args next ih =>
      apply (h.invoke s target method args).trans
      rintro d₁ ⟨h₁, hk₁⟩
      have hown₂ := (hown.invoke s target method args).pollCall s
        (w.invoke s target method args).2
      apply (h₁.pollCall hk₁).trans
      rintro d₂ ⟨h₂, hk₂⟩
      unfold Session.perform
      dsimp only
      split
      · next w₂ _ r heq =>
          rw [heq] at h₂ hown₂
          exact ih r h₂ hown₂
      · next w₂ _ heq =>
          rw [heq] at h₂ hk₂ hown₂
          exact Duo.Leads.here (.awaits h₂ hown₂ hk₂ next)

theorem Shows.resume (serial : Nat) {pause : Pause} (h : w.Shows d) (hown : w.Owns s t)
    (hk : ∀ c ∈ pause.call?, (d.host s).Knows c) :
    d.Leads (Goes (w.resume t s serial pause) s t) := by
  cases pause with
  | fresh a => exact h.perform serial a hown
  | untilStopped next => exact h.perform serial (.untilStopped next) hown
  | forever => exact Duo.Leads.here (.waits h hown rfl)
  | sleeping wakeAt next =>
      unfold Session.resume
      dsimp only
      split
      · exact h.perform serial next hown
      · exact Duo.Leads.here (.waits h hown rfl)
  | gate name next => exact h.perform serial (.gate name next) hown
  | reply call next =>
      have hown₁ := hown.pollCall s call
      apply (h.pollCall (hk call rfl)).trans
      rintro d₁ ⟨h₁, hk₁⟩
      unfold Session.resume
      dsimp only
      split
      · next w₁ _ r heq =>
          rw [heq] at h₁ hown₁
          exact h₁.perform serial (next r) hown₁
      · next w₁ _ heq =>
          rw [heq] at h₁ hk₁ hown₁
          exact Duo.Leads.here (.awaits h₁ hown₁ hk₁ next)

/-- A run that is aborted gives back what it waits for. -/
theorem Shows.abandon (h : w.Shows d) (u : Ticket) {pause : Pause}
    (hk : ∀ c ∈ pause.call?, (d.host s).Knows c) : d.Leads (w.abandon u s pause).Shows := by
  cases pause with
  | gate name next =>
      apply Duo.Leads.here
      exact h.same ⟨rfl, fun _ => rfl, rfl, rfl, rfl, rfl⟩
  | reply call next => exact h.dropCall (hk call rfl)
  | _ => exact Duo.Leads.here h

/-! ## The end of a run -/

theorem Shows.tidy (h : w.Shows d) (s : Side) : (d.host s).Tidy := (h.sides s).tidy

theorem run?_serial {e : Endpoint Service} {serial : Nat} {r : Run Service}
    (hr : e.run? serial = some r) : r ∈ e.runs ∧ r.serial = serial := by
  refine ⟨List.mem_of_find?_eq_some hr, ?_⟩
  have hserial := List.find?_some hr
  exact of_decide_eq_true hserial

/-- A run that is found stopped is one that has been told so. -/
theorem Shows.stopped (h : w.Shows d) {serial : Nat} (hstopped : w.isStopped s serial = true) :
    (d.host s).Stopped serial := by
  obtain ⟨p, hp, he⟩ := h.exists_party s
  unfold Session.isStopped at hstopped
  rw [hp, Option.bind_some, he] at hstopped
  cases hrun : (d.host s).endpoint.run? serial with
  | none =>
      rw [hrun] at hstopped
      cases hstopped
  | some r =>
      rw [hrun] at hstopped
      obtain ⟨hr, rfl⟩ := run?_serial hrun
      have htidy := h.tidy s
      refine ⟨htidy.begun r hr, fun r' hr' hserial => ?_⟩
      have hrun' := (htidy.run?_eq_some r').mpr hr'
      rw [hserial, hrun] at hrun'
      obtain rfl := Option.some.inj hrun'
      exact hstopped

/-- No outcome has been noted of a run that goes on. -/
theorem Shows.outcome?_of_run (h : w.Shows d) {r : Run Service}
    (hr : r ∈ (d.host s).endpoint.runs) : (d.host s).outcome? r.serial = none := by
  unfold Host.outcome?
  cases hfind : (d.host s).concluded.find? fun x => x.1 = r.serial with
  | none => rfl
  | some p =>
      have hgone := (h.sides s).concluded p (List.mem_of_find?_eq_some hfind)
      have hserial := List.find?_some hfind
      exact absurd (of_decide_eq_true hserial).symm (hgone.ended r hr)

/-- The host after a handler has ended with this outcome. -/
theorem Shows.conclude (h : w.Shows d) {r : Run Service} (hr : r ∈ (d.host s).endpoint.runs)
    {o : Outcome} (ho : o.isOwn = true) :
    (d.host s).operate (.conclude r.serial o) =
      ({ d.host s with concluded := (d.host s).concluded ++ [(r.serial, o)] }, []) := by
  have hrun := ((h.tidy s).run?_eq_some r).mpr hr
  have hopen : ((d.host s).endpoint.run? r.serial).isSome &&
      ((d.host s).outcome? r.serial).isNone && o.isOwn := by
    rw [hrun, h.outcome?_of_run hr, ho]
    rfl
  exact if_pos hopen

/-- The outcome of a handler is noted first, and is what its run ends with. -/
theorem Shows.finishOwn (h : w.Shows d) {r : Run Service} (hr : r ∈ (d.host s).endpoint.runs)
    {o : Outcome} (ho : o.isOwn = true) :
    d.Leads (w.take s ((d.host s).endpoint.finish r.serial o)).Shows := by
  have hconclude := h.conclude hr ho
  have houtcome := h.outcome?_of_run hr
  have hrun := ((h.tidy s).run?_eq_some r).mpr hr
  generalize hnoted : { d.host s with
    concluded := (d.host s).concluded ++ [(r.serial, o)] } = noted at hconclude
  have hendpoint : noted.endpoint = (d.host s).endpoint := by rw [← hnoted]
  have hending : noted.ending? r = some o := by
    have hfirst : (d.host s).concluded.find? (fun x => x.1 = r.serial) = none :=
      Option.map_eq_none_iff.mp houtcome
    have hfound : noted.outcome? r.serial = some o := by
      unfold Host.outcome?
      rw [← hnoted, List.find?_append, hfirst]
      simp
    unfold Host.ending?
    rw [hfound]
  have hreap : noted.operate (.reap r.serial) =
      noted.follow ((d.host s).endpoint.finish r.serial o) := by
    simp only [Host.operate, hendpoint, hrun, Option.bind_some, hending]
  have hhost : ((d.desk s).chronicle.run
      [.op (.conclude r.serial o), .op (.reap r.serial)]).host =
        (noted.follow ((d.host s).endpoint.finish r.serial o)).1 := by
    show (((d.host s).operate (.conclude r.serial o)).1.operate (.reap r.serial)).1 = _
    rw [hconclude]
    exact congrArg Prod.fst hreap
  have hwork := (d.host s).endpoint.work_finish r.serial o
  have htakes := h.takes (s := s) [.op (.conclude r.serial o), .op (.reap r.serial)]
    ((d.host s).endpoint.finish r.serial o) rfl (by rw [hhost]; rfl) ?_
    (by rw [hhost, ← hnoted]; rfl) (fun _ => by rw [hhost, ← hnoted]; rfl) ?_
  · apply Duo.Leads.move (.op s (.conclude r.serial o)) trivial
    apply Duo.Leads.move (.op s (.reap r.serial)) trivial
    apply Duo.Leads.here
    unfold Duo.move
    dsimp only
    rw [Duo.put_put, Duo.desk_put]
    exact htakes
  · intro started hstarted
    rw [Endpoint.startedIn_finish] at hstarted
    cases hstarted
  · intro p hp
    rw [hhost, ← hnoted] at hp
    rcases List.mem_append.mp hp with hp | hp
    · exact Chronicle.kept_acts (Q := fun h => h.Gone p.1) (fun _ a hg => hg.step a) _
        ((h.sides s).concluded p hp)
    · -- the run that ends now is gone as well
      obtain rfl := List.mem_singleton.mp hp
      rw [hhost]
      have hruns : ((d.host s).endpoint.finish r.serial o).1.runs =
          (d.host s).endpoint.runs.filter fun r' => r'.serial ≠ r.serial :=
        congrArg Prod.fst hwork
      have hnext : ((d.host s).endpoint.finish r.serial o).1.nextRun =
          (d.host s).endpoint.nextRun := congrArg Prod.snd hwork
      refine ⟨?_, ?_⟩
      · show r.serial < ((d.host s).endpoint.finish r.serial o).1.nextRun
        rw [hnext]
        exact (h.tidy s).begun r hr
      · intro r' hr'
        have hmem : r' ∈ ((d.host s).endpoint.finish r.serial o).1.runs := hr'
        rw [hruns] at hmem
        exact of_decide_eq_true (List.mem_filter.mp hmem).2

/-- **A run ends** as its handler has, or because it has been told to stop. -/
theorem Shows.finish (h : w.Shows d) (hbegan : (d.host s).Began run) {o : Outcome}
    (ho : o.isOwn = true ∨ o = .aborted ∧ run.abortable = true ∧
      (d.host s).Stopped run.serial) :
    d.Leads (w.atEndpoint s fun e => e.finish run.serial o).Shows := by
  rw [h.atEndpoint_eq]
  cases hrun : (d.host s).endpoint.run? run.serial with
  | none =>
      apply Duo.Leads.here
      rw [Endpoint.finish_of_none hrun]
      exact h.idle s
  | some r =>
      obtain ⟨hr, hserial⟩ := run?_serial hrun
      rw [← hserial] at hrun ⊢
      have houtcome := h.outcome?_of_run hr
      rcases ho with hown | ⟨rfl, habortable, hstopped⟩
      · exact h.finishOwn hr hown
      · apply Duo.Leads.move (.op s (.reap r.serial)) trivial
        apply Duo.Leads.here
        have hending : (d.host s).ending? r = some .aborted := by
          have hstop : (r.abortable && r.fired) = true := by
            rw [hbegan.abortable r hr hserial, habortable, hstopped.fired r hr hserial]
            rfl
          unfold Host.ending?
          rw [houtcome]
          exact if_pos hstop
        have hop : (d.host s).operate (.reap r.serial) =
            (d.host s).follow ((d.host s).endpoint.finish r.serial .aborted) := by
          simp only [Host.operate, hrun, Option.bind_some, hending]
        apply h.operate <;> rw [hop] <;> rfl

/-- A run gives back its handle, is answered, and its task ends. -/
theorem Shows.endRun (h : w.Shows d) (hown : w.Owns s t) (ht : 4 < t)
    (hbegan : (d.host s).Began run) {o : Outcome}
    (ho : o.isOwn = true ∨ o = .aborted ∧ run.abortable = true ∧
      (d.host s).Stopped run.serial) :
    d.Leads (w.endRun t s run.serial o).Shows := by
  -- the endpoint may be closed when the handle is given back; what is known of the run survives that
  have hback := (h.setHolds t false).release s
  have hownBack := (hown.setHolds t false).release s
  have hkept := (hback.keep (Q := fun h => h.Began run) (fun _ a _ hb => hb.step a) hbegan).keep
    (Q := fun h => o.isOwn = true ∨ o = .aborted ∧ run.abortable = true ∧ h.Stopped run.serial)
    (fun _ a _ => Or.imp id fun ⟨ho, ha, hs⟩ => ⟨ho, ha, hs.step a⟩) ho
  apply hkept.trans
  rintro d₁ ⟨⟨h₁, hbegan₁⟩, ho₁⟩
  apply (h₁.finish hbegan₁ ho₁).trans
  intro d₂ h₂
  exact h₂.endOther (hownBack.atEndpoint s _) ht

/-- **A run takes its turn.** -/
theorem Shows.handleTurn (h : w.Shows d) {pause : Pause} {holds : Bool}
    (ht : (t, ⟨s, .handle run pause, holds⟩) ∈ w.tasks) :
    d.Leads (w.handleTurn t s run pause).Shows := by
  obtain ⟨hhigh, hbegan, hk⟩ : 4 < t ∧ (d.host s).Began run ∧
      ∀ c ∈ pause.call?, (d.host s).Knows c := (h.sides s).does _ ht rfl
  have hown : w.Owns s t := h.owns ht
  have hresume := (h.resume run.serial hown hk).keep (Q := fun h => h.Began run)
    (fun _ a _ hb => hb.step a) hbegan
  apply hresume.trans
  rintro d₁ ⟨hgoes, hbegan₁⟩
  unfold Session.handleTurn
  split
  · next w₁ o heq =>
      rw [heq] at hgoes
      exact hgoes.shows.endRun hgoes.owns hhigh hbegan₁ (Or.inl (hgoes.own o rfl))
  · next w₁ pause' heq =>
      rw [heq] at hgoes
      have hk₁ := hgoes.knows pause' rfl
      split
      · next habort =>
          obtain ⟨habortable, hstopped⟩ := (Bool.and_eq_true _ _).mp habort
          have habandon := ((hgoes.shows.abandon t hk₁).keep (Q := fun h => h.Began run)
            (fun _ a _ hb => hb.step a) hbegan₁).keep (Q := fun h => h.Stopped run.serial)
            (fun _ a _ hs => hs.step a) (hgoes.shows.stopped hstopped)
          apply habandon.trans
          rintro d₂ ⟨⟨h₂, hbegan₂⟩, hstopped₂⟩
          exact h₂.endRun (hgoes.owns.abandon s t pause') hhigh hbegan₂
            (Or.inr ⟨rfl, habortable, hstopped₂⟩)
      · apply Duo.Leads.here
        exact hgoes.shows.goOn hgoes.owns hhigh _ ⟨hhigh, hbegan₁, hk₁⟩ trivial

end Session

end PeerRpc
