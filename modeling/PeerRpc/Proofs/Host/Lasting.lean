import PeerRpc.Proofs.Host.Replies

/-!
# PeerRpc.Proofs.Host.Lasting -- what stays true of a host

Some facts about a host survive whatever happens at it, so whoever has learnt one of them may rely
on it later: that a call was made there (`Host.Knows`), that a run has begun there under its number
(`Host.Began`), that the run with a number is told to stop if it still goes on (`Host.Stopped`), or
goes on no longer (`Host.Gone`). Each is kept by every single act.
-/

namespace PeerRpc

variable {η : Type}

/-- The same request under the same terms, whatever has become of it. -/
structure Call.Alike (c c' : Call) : Prop where
  id : c'.id = c.id
  limit : c'.limit = c.limit
  started : c'.started = c.started

namespace Call.Alike

theorem refl (c : Call) : c.Alike c := ⟨rfl, rfl, rfl⟩

theorem trans {c c' c'' : Call} (h : c.Alike c') (h' : c'.Alike c'') : c.Alike c'' :=
  ⟨h'.id.trans h.id, h'.limit.trans h.limit, h'.started.trans h.started⟩

theorem hear (c : Call) (x : Event η) : c.Alike (c.hear x) := by
  cases x with
  | settled id r =>
      unfold Call.hear
      dsimp only
      split
      · exact ⟨rfl, rfl, rfl⟩
      · exact refl c
  | _ => exact refl c

theorem hears (events : List (Event η)) (c : Call) : c.Alike (events.foldl Call.hear c) := by
  induction events generalizing c with
  | nil => exact refl c
  | cons x events ih => exact (hear c x).trans (ih _)

theorem poll (c : Call) (now : Nat) (e : Endpoint η) : c.Alike (c.poll now e).2.1 := by
  rcases c.polled now e with ⟨_, _, poll⟩ | ⟨_, _, _, _, poll⟩ | ⟨_, poll⟩ <;> rw [poll] <;>
    exact ⟨rfl, rfl, rfl⟩

end Call.Alike

/-- What every act at a host keeps, any number of acts keep. -/
theorem Chronicle.kept_acts [Handler η] {Q : Host η → Prop} (hQ : ∀ h a, Q h → Q (h.step a).1)
    (acts : List (Act η)) {c : Chronicle η} (hc : Q c.host) : Q (c.run acts).host := by
  induction acts generalizing c with
  | nil => exact hc
  | cons a acts ih =>
      apply ih
      exact hQ c.host a hc

namespace Host

/-! ## Calls -/

/-- The call was made at the host, if it has an id at all. -/
def Knows (h : Host η) (c : Call) : Prop := ∀ id, c.id = some id → ∃ q ∈ h.calls, q.call.Alike c

/-- No call is forgotten. -/
def Remembers (h : Host η) (x : Host η × List (Event η)) : Prop :=
  ∀ q ∈ h.calls, ∃ q' ∈ x.1.calls, q'.call.Alike q.call

theorem Remembers.of_eq {h : Host η} {x : Host η × List (Event η)} (hx : x.1.calls = h.calls) :
    h.Remembers x := by
  intro q hq
  exact ⟨q, hx ▸ hq, .refl _⟩

theorem Remembers.follow (h : Host η) (s : Endpoint.Step η) : h.Remembers (h.follow s) := by
  intro q hq
  refine ⟨q.hear s.2, List.mem_map_of_mem hq, ?_⟩
  have hears := Call.Alike.hears s.2 q.call
  exact ⟨hears.id.symm, hears.limit.symm, hears.started.symm⟩

theorem Remembers.attempt (h : Host η) (r : Except CallError (Endpoint.Step η)) :
    h.Remembers (h.attempt r) := by
  cases r with
  | error err => exact .of_eq rfl
  | ok s => exact .follow h s

theorem Remembers.onCall (h : Host η) (k : Nat) {f : Call → Call × Endpoint.Step η}
    (hf : ∀ c : Call, c.Alike (f c).1) : h.Remembers (h.onCall k f) := by
  unfold Host.onCall
  split
  · exact .of_eq rfl
  · next q₀ hq₀ =>
      -- the call is put back, and then all calls hear of the step
      intro q hq
      have hset : ∃ q' ∈ h.calls.set k { q₀ with call := (f q₀.call).1 }, q'.call.Alike q.call := by
        obtain ⟨i, hi⟩ := List.mem_iff_getElem?.mp hq
        by_cases hik : k = i
        · subst hik
          obtain rfl := Option.some.inj (hq₀.symm.trans hi)
          have hlt := (List.getElem?_eq_some_iff.mp hi).1
          have hput := List.getElem?_set_self (a := { q₀ with call := (f q₀.call).1 }) hlt
          have hkept := hf q₀.call
          exact ⟨_, List.mem_of_getElem? hput, hkept.id.symm, hkept.limit.symm, hkept.started.symm⟩
        · rw [← List.getElem?_set_ne hik] at hi
          exact ⟨q, List.mem_of_getElem? hi, .refl _⟩
      obtain ⟨q', hq', hlike⟩ := hset
      obtain ⟨q'', hq'', hlike'⟩ := Remembers.follow
        { h with calls := h.calls.set k { q₀ with call := (f q₀.call).1 } } (f q₀.call).2 q' hq'
      exact ⟨q'', hq'', hlike'.trans hlike⟩

theorem Remembers.begin (h : Host η) (proxy : ProxyId) (method : String) (args : List Value)
    (r : RequestId × Endpoint.Step η) : h.Remembers (h.begin proxy method args r) := by
  intro q hq
  unfold Host.begin
  exact Remembers.follow _ r.2 q (List.mem_append_left _ hq)

theorem remembers_operate (h : Host η) (o : Op η) : h.Remembers (h.operate o) := by
  cases o with
  | invoke i method args =>
      rw [operate_invoke]
      split
      · exact .of_eq rfl
      · split
        · intro q hq
          exact ⟨q, List.mem_append_left _ hq, .refl _⟩
        · exact .begin h _ _ _ _
  | request proxy method args =>
      simp only [operate]
      split
      · exact .of_eq rfl
      · exact .begin h _ _ _ _
  | notify i method args => exact .attempt h _
  | notifyProxy proxy method args => exact .attempt h _
  | cancel k => exact .onCall h k .refl
  | drop k => exact .onCall h k .refl
  | poll k => exact .onCall h k fun c => .poll c h.now h.endpoint
  | set i handler =>
      rw [operate_set]
      split <;> exact .of_eq rfl
  | conclude serial out =>
      simp only [operate]
      split <;> exact .of_eq rfl
  | stop serial => exact .follow h _
  | reap serial =>
      simp only [operate]
      split
      · exact .of_eq rfl
      · exact .follow h _
  | close => exact .follow h _
  | _ => exact .of_eq rfl

variable [Handler η]

theorem remembers_step (h : Host η) (a : Act η) : h.Remembers (h.step a) := by
  cases a with
  | op o => exact h.remembers_operate o
  | receive frame => exact .follow h _
  | take =>
      simp only [step]
      split <;> exact .of_eq rfl
  | sent r =>
      simp only [step]
      split
      · exact .of_eq rfl
      · exact .of_eq rfl
      · next o err _ _ =>
          intro q hq
          exact Remembers.follow { h with sending := none } _ q hq

/-- A call that was made stays made. -/
theorem Knows.step {h : Host η} {c : Call} (hk : h.Knows c) (a : Act η) : (h.step a).1.Knows c := by
  intro id hid
  obtain ⟨q, hq, hlike⟩ := hk id hid
  obtain ⟨q', hq', hlike'⟩ := h.remembers_step a q hq
  exact ⟨q', hq', hlike'.trans hlike⟩

omit [Handler η] in
theorem Knows.alike {h : Host η} {c c' : Call} (hk : h.Knows c) (hc : c.Alike c') : h.Knows c' := by
  intro id hid
  obtain ⟨q, hq, hlike⟩ := hk id (hc.id.symm.trans hid)
  exact ⟨q, hq, hlike.trans hc⟩

/-! ## Runs -/

/-- The run has begun at the host, under its number and on its terms. -/
structure Began (h : Host η) (r : Run η) : Prop where
  begun : r.serial < h.endpoint.nextRun
  abortable : ∀ r' ∈ h.endpoint.runs, r'.serial = r.serial → r'.abortable = r.abortable

/-- The run with this number is told to stop, if it still goes on. -/
structure Stopped (h : Host η) (serial : Nat) : Prop where
  begun : serial < h.endpoint.nextRun
  fired : ∀ r ∈ h.endpoint.runs, r.serial = serial → r.fired = true

theorem nextRun_step (h : Host η) (a : Act η) :
    h.endpoint.nextRun ≤ (h.step a).1.endpoint.nextRun := by
  rw [(h.works_step a).nextRun]
  exact Nat.le_add_right _ _

theorem Began.step {h : Host η} {r : Run η} (hr : h.Began r) (a : Act η) :
    (h.step a).1.Began r := by
  have hnext := h.nextRun_step a
  have hbegun := hr.begun
  refine ⟨by omega, fun r' hr' hserial => ?_⟩
  rcases (h.mem_runs_step a r').mp hr' with ⟨r₀, hr₀, -, rfl⟩ | hstart
  · exact hr.abortable r₀ hr₀ ((Run.serial_tell _ r₀).symm.trans hserial)
  · -- a run that begins now has a number of its own
    have hfresh := (starts?_eq_some hstart).serial
    omega

theorem Stopped.step {h : Host η} {serial : Nat} (hs : h.Stopped serial) (a : Act η) :
    (h.step a).1.Stopped serial := by
  have hnext := h.nextRun_step a
  have hbegun := hs.begun
  refine ⟨by omega, fun r hr hserial => ?_⟩
  rcases (h.mem_runs_step a r).mp hr with ⟨r₀, hr₀, -, rfl⟩ | hstart
  · have hfired := hs.fired r₀ hr₀ ((Run.serial_tell _ r₀).symm.trans hserial)
    show (r₀.fired || h.tells a r₀) = true
    rw [hfired, Bool.true_or]
  · have hfresh := (starts?_eq_some hstart).serial
    omega

/-- The run with this number has begun and ended. -/
structure Gone (h : Host η) (serial : Nat) : Prop where
  begun : serial < h.endpoint.nextRun
  ended : ∀ r ∈ h.endpoint.runs, r.serial ≠ serial

theorem Gone.step {h : Host η} {serial : Nat} (hg : h.Gone serial) (a : Act η) :
    (h.step a).1.Gone serial := by
  have hnext := h.nextRun_step a
  have hbegun := hg.begun
  refine ⟨by omega, fun r hr => ?_⟩
  rcases (h.mem_runs_step a r).mp hr with ⟨r₀, hr₀, -, rfl⟩ | hstart
  · exact hg.ended r₀ hr₀
  · have hfresh := (starts?_eq_some hstart).serial
    omega

/-- A run that begins with an act has begun. -/
theorem Tidy.began {h : Host η} (hh : h.Tidy) {a : Act η} {r : Run η}
    (hr : r ∈ startedIn (h.step a).2) : (h.step a).1.Began r := by
  rw [(h.works_step a).started] at hr
  have hstart := Option.mem_toList.mp hr
  have hmem := (h.mem_runs_step a r).mpr (Or.inr hstart)
  have htidy := hh.step a
  refine ⟨htidy.begun r hmem, fun r' hr' hserial => ?_⟩
  have hfind := (htidy.run?_eq_some r).mpr hmem
  rw [← hserial, (htidy.run?_eq_some r').mpr hr'] at hfind
  exact congrArg Run.abortable (Option.some.inj hfind)

end Host

end PeerRpc
