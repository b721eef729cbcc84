import PeerRpc.Proofs.Course.Basic
import PeerRpc.Proofs.Host.Offers

/-!
# PeerRpc.Proofs.Course.Runs -- what becomes of the runs of an endpoint

A run begins under a number of its own, may be told to stop, and ends; nothing else becomes of it,
whatever is done at its endpoint (`Endpoint.follows_step`). What callers do, and whoever closes the
endpoint, leaves the runs as they are and answers no request (`Endpoint.Minds`), and whenever a run
is told to stop there is an event that says so (`Endpoint.Tells`).
-/

namespace PeerRpc

variable {η : Type}

/-- Where each key is given once, a key finds the one element that has it. -/
theorem find?_key_iff {α κ : Type} [DecidableEq κ] {key : α → κ} {xs : List α}
    (h : (xs.map key).Nodup) {k : κ} {x : α} :
    (xs.find? fun x => key x = k) = some x ↔ x ∈ xs ∧ key x = k := by
  constructor
  · intro hx
    have hkey := List.find?_some hx
    exact ⟨List.mem_of_find?_eq_some hx, of_decide_eq_true hkey⟩
  · rintro ⟨hx, rfl⟩
    cases hfind : xs.find? fun y => key y = key x with
    | none => exact absurd (decide_eq_true rfl) (List.find?_eq_none.mp hfind x hx)
    | some y =>
        have hkey := List.find?_some hfind
        have hsame := List.inj_on_of_nodup_map h (List.mem_of_find?_eq_some hfind) hx
          (of_decide_eq_true hkey)
        rw [hsame]

/-- A run as it began. -/
def Run.asBegun (r : Run η) : Run η := { r with fired := false }

@[simp] theorem Run.asBegun_tell (b : Bool) (r : Run η) : (r.tell b).asBegun = r.asBegun := rfl

namespace Endpoint

variable {e e' e'' : Endpoint η} {s : Step η} {serial : Nat}

/-- Whether the run with this number has been told to stop. -/
def isStopped (e : Endpoint η) (serial : Nat) : Bool := (e.run? serial).any (·.fired)

/-! ## The same runs -/

/-- The same runs, some of which may have been told to stop. -/
structure SameRuns (e e' : Endpoint η) : Prop where
  runs : ∃ f : Run η → Bool, e'.runs = e.runs.map fun r => r.tell (f r)
  nextRun : e'.nextRun = e.nextRun

theorem SameRuns.of_work (h : e'.work = e.work) : e.SameRuns e' := by
  obtain ⟨hruns, hnext⟩ := Prod.mk.inj h
  refine ⟨⟨fun _ => false, ?_⟩, hnext⟩
  rw [hruns]
  simp

theorem SameRuns.trans (h : e.SameRuns e') (h' : e'.SameRuns e'') : e.SameRuns e'' := by
  obtain ⟨f, hf⟩ := h.runs
  obtain ⟨g, hg⟩ := h'.runs
  refine ⟨⟨fun r => f r || g (r.tell (f r)), ?_⟩, h'.nextRun.trans h.nextRun⟩
  rw [hg, hf, List.map_map]
  exact List.map_congr_left fun r _ => r.tell_tell _ _

theorem SameRuns.asBegun (h : e.SameRuns e') :
    e'.runs.map Run.asBegun = e.runs.map Run.asBegun := by
  obtain ⟨f, hf⟩ := h.runs
  rw [hf, List.map_map]
  rfl

theorem SameRuns.serials (h : e.SameRuns e') :
    e'.runs.map Run.serial = e.runs.map Run.serial := by
  obtain ⟨f, hf⟩ := h.runs
  rw [hf, List.map_map]
  rfl

theorem run?_of_runs {f : Run η → Bool} (h : e'.runs = e.runs.map fun r => r.tell (f r))
    (serial : Nat) : e'.run? serial = (e.run? serial).map fun r => r.tell (f r) := by
  unfold Endpoint.run?
  rw [h, List.find?_map]
  rfl

/-- Who has been told to stop stays told. -/
theorem SameRuns.isStopped (h : e.SameRuns e') (hstop : e.isStopped serial = true) :
    e'.isStopped serial = true := by
  obtain ⟨f, hf⟩ := h.runs
  unfold Endpoint.isStopped at hstop ⊢
  rw [run?_of_runs hf]
  cases hr : e.run? serial with
  | none =>
      rw [hr] at hstop
      cases hstop
  | some r =>
      rw [hr] at hstop
      have hfired : r.fired = true := hstop
      show (r.fired || f r) = true
      rw [hfired, Bool.true_or]

/-- A run that is found stopped was stopped before or has been told so. -/
theorem isStopped_of_runs {f : Run η → Bool} (h : e'.runs = e.runs.map fun r => r.tell (f r))
    (hstop : e'.isStopped serial = true) :
    e.isStopped serial = true ∨
      ∃ r ∈ e.runs, r.serial = serial ∧ r.fired = false ∧ f r = true := by
  unfold Endpoint.isStopped at hstop ⊢
  rw [run?_of_runs h] at hstop
  cases hr : e.run? serial with
  | none =>
      rw [hr] at hstop
      cases hstop
  | some r =>
      rw [hr] at hstop
      have htold : (r.fired || f r) = true := hstop
      have hserial := List.find?_some hr
      cases hfired : r.fired with
      | true => exact Or.inl hfired
      | false =>
          rw [hfired, Bool.false_or] at htold
          refine Or.inr ⟨r, List.mem_of_find?_eq_some hr, of_decide_eq_true hserial, hfired, htold⟩

/-- Where numbers are given once, a number stands for one run. -/
theorem run?_eq_some_iff (h : (e.runs.map Run.serial).Nodup) {r : Run η} :
    e.run? serial = some r ↔ r ∈ e.runs ∧ r.serial = serial := find?_key_iff h

theorem isStopped_iff (h : (e.runs.map Run.serial).Nodup) :
    e.isStopped serial = true ↔ ∃ r ∈ e.runs, r.serial = serial ∧ r.fired = true := by
  unfold Endpoint.isStopped
  rw [Option.any_eq_true]
  constructor
  · rintro ⟨r, hr, hfired⟩
    obtain ⟨hmem, hserial⟩ := (run?_eq_some_iff h).mp hr
    exact ⟨r, hmem, hserial, hfired⟩
  · rintro ⟨r, hmem, hserial, hfired⟩
    exact ⟨r, (run?_eq_some_iff h).mpr ⟨hmem, hserial⟩, hfired⟩

/-- No other run is stopped when one ends. -/
theorem isStopped_finish (h : (e.runs.map Run.serial).Nodup) {n : Nat} {o : Outcome}
    (hstop : (e.finish n o).1.isStopped serial = true) : e.isStopped serial = true := by
  have hruns : (e.finish n o).1.runs = e.runs.filter fun r => r.serial ≠ n :=
    congrArg Prod.fst (e.work_finish n o)
  have hserials : ((e.finish n o).1.runs.map Run.serial).Nodup := by
    rw [hruns]
    exact (List.filter_sublist.map Run.serial).nodup h
  obtain ⟨r, hr, hserial, hfired⟩ := (isStopped_iff hserials).mp hstop
  rw [hruns] at hr
  exact (isStopped_iff h).mpr ⟨r, List.mem_of_mem_filter hr, hserial, hfired⟩

theorem isStopped_fire (h : (e.runs.map Run.serial).Nodup) {r : Run η} (hr : r ∈ e.runs) :
    (e.fire r.serial).1.isStopped r.serial = true := by
  unfold Endpoint.isStopped
  rw [run?_of_runs (e.runs_fire r.serial), (run?_eq_some_iff h).mpr ⟨hr, rfl⟩]
  simp [Run.tell]

/-! ## Steps that begin and end no run -/

/-- A step with which no run begins, and which says of every run that it tells to stop that it
does. -/
structure Tells (e : Endpoint η) (s : Step η) : Prop extends SameRuns e s.1 where
  started : startedIn s.2 = []
  told : ∀ serial, s.1.isStopped serial = true →
    e.isStopped serial = true ∨ .fired serial ∈ s.2

theorem Tells.of_calm (h : Calm e s) : e.Tells s := by
  refine ⟨.of_work h.work, h.started, fun serial hstop => Or.inl ?_⟩
  have hruns : s.1.runs = e.runs := congrArg Prod.fst h.work
  unfold Endpoint.isStopped Endpoint.run? at hstop ⊢
  rw [← hruns]
  exact hstop

theorem tells_fire (e : Endpoint η) (serial : Nat) : e.Tells (e.fire serial) := by
  have hruns := e.runs_fire serial
  have hnext : (e.fire serial).1.nextRun = e.nextRun := by rw [fire_fst]
  refine ⟨⟨⟨_, hruns⟩, hnext⟩, startedIn_fire e serial, fun n hstop => ?_⟩
  refine (isStopped_of_runs hruns hstop).imp_right ?_
  rintro ⟨r, hr, rfl, hfired, htold⟩
  obtain rfl := of_decide_eq_true htold
  have hany : (e.runs.any fun r' => r'.serial = r.serial && !r'.fired) = true := by
    rw [List.any_eq_true]
    exact ⟨r, hr, by simp [hfired]⟩
  unfold Endpoint.fire
  rw [if_pos hany]
  exact List.mem_singleton.mpr rfl

theorem tells_close (e : Endpoint η) : e.Tells e.close := by
  refine ⟨⟨⟨_, e.runs_close⟩, e.nextRun_close⟩, startedIn_close e, fun n hstop => ?_⟩
  refine (isStopped_of_runs e.runs_close hstop).imp_right ?_
  rintro ⟨r, hr, rfl, hfired, hopen⟩
  have hmem : r ∈ (e.runs.filter fun r => !r.fired).reverse := by
    rw [List.mem_reverse, List.mem_filter, hfired]
    exact ⟨hr, rfl⟩
  rw [close_snd_of_open hopen]
  apply List.mem_append_left
  apply List.mem_append_right
  exact List.mem_map_of_mem (f := fun r : Run η => Event.fired r.serial) hmem

/-- A message is acted on by starting a run, or by a step that begins none. -/
inductive Acts [Handler η] (e : Endpoint η) : Step η → Prop where
  | tells {s : Step η} (h : e.Tells s) : Acts e s
  | starts (request proxy method args h) : Acts e (e.start request proxy method args h)

theorem acts_receive [Handler η] (e : Endpoint η) (frame : Bytes) : e.Acts (e.receive frame) := by
  have h := e.handles_receive frame
  generalize e.receive frame = s at h ⊢
  cases h with
  | nothing => exact .tells (.of_calm (.refl e))
  | misses id proxy => exact .tells (.of_calm (calm_enqueue e _))
  | starts request method args hg => exact .starts ..
  | settles id r => exact .tells (.of_calm (calm_settle e id r))
  | fires serial => exact .tells (tells_fire e serial)

/-! ## Steps that answer nothing -/

/-- A later state of an endpoint with the same runs, none of which has been answered in between. -/
structure Minds (e e' : Endpoint η) : Prop extends SameRuns e e' where
  outbound : ∃ more, e'.outbound = e.outbound ++ more ∧ ∀ o ∈ more, o.isReply = false
  isOpen : e.isOpen = false → e'.isOpen = false

theorem Minds.trans (h : e.Minds e') (h' : e'.Minds e'') : e.Minds e'' := by
  obtain ⟨xs, hxs, hsilent⟩ := h.outbound
  obtain ⟨ys, hys, hsilent'⟩ := h'.outbound
  refine ⟨h.toSameRuns.trans h'.toSameRuns, ⟨xs ++ ys, ?_, ?_⟩,
    fun hopen => h'.isOpen (h.isOpen hopen)⟩
  · rw [hys, hxs, List.append_assoc]
  · intro o ho
    rcases List.mem_append.mp ho with ho | ho
    · exact hsilent o ho
    · exact hsilent' o ho

/-- An endpoint that differs in nothing that concerns its runs, its messages or its state. -/
theorem Minds.of_eq (hwork : e'.work = e.work) (hout : e'.outbound = e.outbound)
    (hopen : e'.isOpen = e.isOpen) : e.Minds e' := by
  refine ⟨.of_work hwork, ⟨[], ?_, nofun⟩, fun h => hopen.trans h⟩
  rw [hout, List.append_nil]

theorem Minds.refl (e : Endpoint η) : e.Minds e := .of_eq rfl rfl rfl

theorem minds_enqueue (e : Endpoint η) {o : Outbound} (ho : o.isReply = false) :
    e.Minds (e.enqueue o).1 := by
  refine ⟨.of_work (calm_enqueue e o).work, ?_, fun h => (steady_enqueue e o).trans h⟩
  rw [enqueue_fst]
  dsimp only
  split
  · exact ⟨[o], rfl, fun x hx => by rw [List.mem_singleton.mp hx, ho]⟩
  · exact ⟨[], (List.append_nil _).symm, nofun⟩

theorem minds_settle (e : Endpoint η) (id : RequestId) (r : ProxyId → CallResult) :
    e.Minds (e.settle id r).1 := by
  rw [settle_fst]
  exact .of_eq rfl rfl rfl

theorem minds_request (e : Endpoint η) (proxy : ProxyId) (method : String) (args : List Value) :
    e.Minds (e.request proxy method args).2.1 := by
  cases hr : e.refusal? proxy method args with
  | some err =>
      rw [request_of_refusal hr]
      exact .of_eq rfl rfl rfl
  | none =>
      rw [request_of_none hr]
      exact ⟨.of_work rfl, ⟨_, rfl, fun x hx => by rw [List.mem_singleton.mp hx]; rfl⟩, id⟩

theorem minds_cancelRequest (e : Endpoint η) (id : RequestId) (reason : CallError) :
    e.Minds (e.cancelRequest id reason).2.1 := by
  by_cases h : id ∈ e.waiting
  · rw [cancelRequest_of_waiting h]
    exact (minds_settle e id _).trans (minds_enqueue _ rfl)
  · rw [cancelRequest_of_not_waiting h]
    exact .refl e

theorem minds_notifyProxy {proxy : ProxyId} {method : String} {args : List Value}
    (h : e.notifyProxy proxy method args = .ok s) : e.Minds s.1 := by
  obtain ⟨-, rfl⟩ := notifyProxy_eq_ok h
  exact minds_enqueue e rfl

theorem minds_close (e : Endpoint η) : e.Minds e.close.1 := by
  refine ⟨(tells_close e).toSameRuns, ⟨[], ?_, nofun⟩, fun _ => e.isOpen_close⟩
  rw [List.append_nil]
  cases hopen : e.isOpen with
  | true => rw [close_fst_of_open hopen]
  | false => rw [close_of_closed hopen]

/-! ## Runs are what they were, or new -/

/-- A later state of an endpoint, in which some runs may have ended and others may have begun. -/
structure Follows (e e' : Endpoint η) : Prop where
  nextRun : e.nextRun ≤ e'.nextRun
  runs : ∀ r' ∈ e'.runs, e.nextRun ≤ r'.serial ∨ ∃ r ∈ e.runs, ∃ b, r' = r.tell b

theorem SameRuns.follows (h : e.SameRuns e') : e.Follows e' := by
  obtain ⟨f, hf⟩ := h.runs
  refine ⟨Nat.le_of_eq h.nextRun.symm, fun r' hr' => Or.inr ?_⟩
  rw [hf] at hr'
  obtain ⟨r, hr, rfl⟩ := List.mem_map.mp hr'
  exact ⟨r, hr, f r, rfl⟩

theorem Follows.of_work (h : e'.work = e.work) : e.Follows e' := (SameRuns.of_work h).follows

theorem Follows.refl (e : Endpoint η) : e.Follows e := .of_work rfl

theorem Follows.trans (h : e.Follows e') (h' : e'.Follows e'') : e.Follows e'' := by
  refine ⟨Nat.le_trans h.nextRun h'.nextRun, fun r'' hr'' => ?_⟩
  rcases h'.runs r'' hr'' with hnew | ⟨r', hr', b', rfl⟩
  · exact Or.inl (Nat.le_trans h.nextRun hnew)
  · rcases h.runs r' hr' with hnew | ⟨r, hr, b, rfl⟩
    · exact Or.inl hnew
    · exact Or.inr ⟨r, hr, b || b', r.tell_tell b b'⟩

theorem follows_finish (e : Endpoint η) (serial : Nat) (o : Outcome) :
    e.Follows (e.finish serial o).1 := by
  obtain ⟨hruns, hnext⟩ := Prod.mk.inj (e.work_finish serial o)
  refine ⟨Nat.le_of_eq hnext.symm, fun r' hr' => Or.inr ⟨r', ?_, false, (r'.tell_false).symm⟩⟩
  rw [hruns] at hr'
  exact List.mem_of_mem_filter hr'

theorem Acts.follows [Handler η] (h : e.Acts s) : e.Follows s.1 := by
  cases h with
  | tells h => exact h.follows
  | starts request proxy method args h =>
      refine ⟨Nat.le_succ _, fun r' hr' => ?_⟩
      rcases List.mem_append.mp hr' with hr' | hr'
      · exact Or.inr ⟨r', hr', false, (r'.tell_false).symm⟩
      · rw [List.mem_singleton.mp hr']
        exact Or.inl (Nat.le_refl _)

/-- **Whatever is done at an endpoint**, a run begins under a new number, is told to stop, or
ends. -/
theorem follows_step [Handler η] (e : Endpoint η) (d : Deed η) : e.Follows (d.step e).1 := by
  cases d with
  | request proxy method args => exact (minds_request e proxy method args).follows
  | notify proxy method args =>
      simp only [Deed.step]
      split
      · next s hs => exact (minds_notifyProxy hs).follows
      · exact .refl e
  | cancel id reason => exact (minds_cancelRequest e id reason).follows
  | serve registry => exact .of_work rfl
  | stop serial => exact (tells_fire e serial).follows
  | finish serial o => exact follows_finish e serial o
  | close => exact (minds_close e).follows
  | letGo => exact (minds_close e).follows
  | read received =>
      simp only [Deed.step]
      split
      · obtain _ | err | frame := received
        · exact .refl e
        · exact (minds_close e).follows
        · exact (acts_receive e frame).follows
      · exact .refl e
  | hand =>
      simp only [Deed.step]
      split
      · next o e' hd =>
          obtain ⟨-, rest, -, rfl⟩ := dequeue_eq_some.mp hd
          exact .of_work rfl
      · exact .refl e
  | sent o r =>
      cases r with
      | ok u => exact .refl e
      | error err =>
          simp only [Deed.step]
          split
          · exact (minds_close e).follows
          · exact .of_work (calm_undeliverable e o err).work

/-- The run with this number has begun and has ended. -/
structure Ended (e : Endpoint η) (serial : Nat) : Prop where
  begun : serial < e.nextRun
  gone : ∀ r ∈ e.runs, r.serial ≠ serial

theorem ended_finish (hbegun : serial < e.nextRun) (o : Outcome) :
    (e.finish serial o).1.Ended serial := by
  obtain ⟨hruns, hnext⟩ := Prod.mk.inj (e.work_finish serial o)
  refine ⟨hnext.symm ▸ hbegun, fun r hr => ?_⟩
  rw [hruns] at hr
  exact of_decide_eq_true (List.mem_filter.mp hr).2

/-- A run that has ended does not begin again. -/
theorem Follows.ended (h : e.Follows e') (hend : e.Ended serial) : e'.Ended serial := by
  refine ⟨Nat.lt_of_lt_of_le hend.begun h.nextRun, fun r' hr' hserial => ?_⟩
  rcases h.runs r' hr' with hnew | ⟨r, hr, b, rfl⟩
  · exact absurd hend.begun (Nat.not_lt.mpr (hserial ▸ hnew))
  · exact hend.gone r hr hserial

/-- The run with this number has begun, and if it goes on it has been told to stop. -/
structure Told (e : Endpoint η) (serial : Nat) : Prop where
  begun : serial < e.nextRun
  fired : ∀ r ∈ e.runs, r.serial = serial → r.fired = true

theorem told_of_isStopped (h : (e.runs.map Run.serial).Nodup)
    (hbegun : ∀ r ∈ e.runs, r.serial < e.nextRun) (hstop : e.isStopped serial = true) :
    e.Told serial := by
  obtain ⟨r, hr, rfl, hfired⟩ := (isStopped_iff h).mp hstop
  refine ⟨hbegun r hr, fun r' hr' hserial => ?_⟩
  rw [List.inj_on_of_nodup_map h hr' hr hserial]
  exact hfired

theorem Told.isStopped (h : e.Told serial) {r : Run η} (hr : e.run? serial = some r) :
    e.isStopped serial = true := by
  have hserial := List.find?_some hr
  unfold Endpoint.isStopped
  rw [hr, Option.any_some]
  exact h.fired r (List.mem_of_find?_eq_some hr) (of_decide_eq_true hserial)

theorem Follows.told (h : e.Follows e') (htold : e.Told serial) : e'.Told serial := by
  refine ⟨Nat.lt_of_lt_of_le htold.begun h.nextRun, fun r' hr' hserial => ?_⟩
  rcases h.runs r' hr' with hnew | ⟨r, hr, b, rfl⟩
  · exact absurd htold.begun (Nat.not_lt.mpr (hserial ▸ hnew))
  · have hfired := htold.fired r hr hserial
    show (r.fired || b) = true
    rw [hfired, Bool.true_or]

/-- Whatever is done at an endpoint, one thing after the other. -/
theorem follows_deeds [Handler η] (e : Endpoint η) (deeds : List (Deed η)) :
    e.Follows (deeds.foldl (fun e d => (d.step e).1) e) :=
  List.foldlRecOn (motive := e.Follows) _ _ (.refl e) fun e' h d _ => h.trans (e'.follows_step d)

end Endpoint

namespace Call

open Endpoint

theorem minds_cancelWith (c : Call) (reason : CallError) (e : Endpoint η) :
    e.Minds (c.cancelWith reason e).2.1 := by
  unfold cancelWith
  split
  · exact .refl e
  · exact minds_cancelRequest e _ _

theorem minds_drop (c : Call) (e : Endpoint η) : e.Minds (c.drop e).1 := by
  unfold Call.drop
  split
  · exact .refl e
  · exact c.minds_cancelWith _ e

theorem minds_poll (c : Call) (now : Nat) (e : Endpoint η) : e.Minds (c.poll now e).2.2.1 := by
  cases c.polled now e with
  | delivered r hd poll => exact poll ▸ .refl e
  | late d hn limit late poll => exact poll ▸ c.minds_cancelWith _ e
  | early hn poll => exact poll ▸ .refl e

end Call

end PeerRpc
