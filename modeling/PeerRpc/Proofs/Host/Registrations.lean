import PeerRpc.Proofs.Endpoint.Regular
import PeerRpc.Proofs.Host.Basic

/-!
# PeerRpc.Proofs.Host.Registrations -- who serves which id, after everything that has happened

Handlers are registered and removed through the endpoint or directly in its registry, and nothing
else touches the registry: `Host.rebinds?` reads off an act which id it gives another handler, or
none, and `Host.registry_step` says that this is all that becomes of the registry.

So an id is served by the handler that was registered under it last and has not been removed since
(`Chronicle.serves_iff`), whatever else has happened.
-/

namespace PeerRpc

variable {η : Type}

namespace Registry

/-- The registry in which an id has another handler, or none. -/
def rebind (r : Registry η) : ProxyId × Option η → Registry η
  | (id, some g) => (r.register id g).1
  | (id, none) => (r.unregister id).1

/-- An id is served by the handler that it was given, and other ids are served as before. -/
theorem get?_rebind (r : Registry η) (b : ProxyId × Option η) (id : ProxyId) :
    (r.rebind b).get? id = if b.1 = id then b.2 else r.get? id := by
  obtain ⟨id', g⟩ := b
  cases g with
  | none => exact r.get?_unregister id' id
  | some g => exact r.get?_register id' id g

end Registry

/-! ## Operations that have nothing to do with services -/

namespace Endpoint

@[simp] theorem registry_enqueue (e : Endpoint η) (o : Outbound) :
    (e.enqueue o).1.registry = e.registry := by
  rw [enqueue_fst]

@[simp] theorem registry_settle (e : Endpoint η) (id : RequestId) (r : ProxyId → CallResult) :
    (e.settle id r).1.registry = e.registry := by
  rw [settle_fst]

@[simp] theorem registry_request (e : Endpoint η) (proxy : ProxyId) (method : String)
    (args : List Value) : (e.request proxy method args).2.1.registry = e.registry := by
  cases hr : e.refusal? proxy method args with
  | some err => rw [request_of_refusal hr]
  | none => rw [request_of_none hr]

theorem registry_notifyProxy {e : Endpoint η} {proxy : ProxyId} {method : String}
    {args : List Value} {s : Step η} (h : e.notifyProxy proxy method args = .ok s) :
    s.1.registry = e.registry := by
  obtain ⟨-, rfl⟩ := notifyProxy_eq_ok h
  exact registry_enqueue e _

@[simp] theorem registry_cancelRequest (e : Endpoint η) (id : RequestId) (reason : CallError) :
    (e.cancelRequest id reason).2.1.registry = e.registry := by
  by_cases h : id ∈ e.waiting
  · rw [cancelRequest_of_waiting h]
    exact (registry_enqueue _ _).trans (registry_settle e id _)
  · rw [cancelRequest_of_not_waiting h]

@[simp] theorem registry_fire (e : Endpoint η) (serial : Nat) :
    (e.fire serial).1.registry = e.registry := by
  rw [fire_fst]

@[simp] theorem registry_finish (e : Endpoint η) (serial : Nat) (o : Outcome) :
    (e.finish serial o).1.registry = e.registry := by
  rcases e.finish_cases serial o with heq | ⟨id, heq⟩
  · rw [heq]
  · rw [heq]
    exact registry_enqueue _ _

@[simp] theorem registry_close (e : Endpoint η) : e.close.1.registry = e.registry := by
  cases h : e.isOpen with
  | false => rw [close_of_closed h]
  | true => rw [close_fst_of_open h]

@[simp] theorem registry_undeliverable (e : Endpoint η) (o : Outbound) (err : TransportError) :
    (e.undeliverable o err).1.registry = e.registry := by
  rcases e.undeliverable_cases o err with heq | ⟨id, r, heq⟩ | ⟨o', heq⟩
  · rw [heq]
  · exact heq ▸ registry_settle e id r
  · exact heq ▸ registry_enqueue e o'

@[simp] theorem registry_receive [Handler η] (e : Endpoint η) (frame : Bytes) :
    (e.receive frame).1.registry = e.registry := by
  have h := e.handles_receive frame
  generalize e.receive frame = s at h ⊢
  cases h with
  | nothing => rfl
  | misses id proxy => exact registry_enqueue e _
  | starts request method args hg => rfl
  | settles id r => exact registry_settle e id r
  | fires serial => exact registry_fire e serial

end Endpoint

namespace Call

@[simp] theorem registry_cancelWith (c : Call) (reason : CallError) (e : Endpoint η) :
    (c.cancelWith reason e).2.1.registry = e.registry := by
  unfold cancelWith
  split
  · rfl
  · exact e.registry_cancelRequest _ _

@[simp] theorem registry_drop (c : Call) (e : Endpoint η) :
    (c.drop e).1.registry = e.registry := by
  unfold Call.drop
  split
  · rfl
  · exact c.registry_cancelWith _ e

@[simp] theorem registry_poll (c : Call) (now : Nat) (e : Endpoint η) :
    (c.poll now e).2.2.1.registry = e.registry := by
  cases c.polled now e with
  | delivered r hd poll => rw [poll]
  | late d hn limit late poll =>
      rw [poll]
      exact c.registry_cancelWith _ e
  | early hn poll => rw [poll]

end Call

/-! ## Acts -/

namespace Host

/-- The id that an act gives another handler, or none. A service is not hosted for the other side,
but it is removed whatever the side of its identifier is. -/
def rebinds? (h : Host η) : Act η → Option (ProxyId × Option η)
  | .op (.set i g) => if i.side = h.endpoint.side then some (i.id, some g) else none
  | .op (.unset i) => some (i.id, none)
  | .op (.register id g) => some (id, some g)
  | .op (.unregister id) => some (id, none)
  | _ => none

/-- An act that gives an id another handler hosts a service of the own side, removes one, or works
on the registry directly. -/
theorem rebinds?_eq_some {h : Host η} {a : Act η} {id : ProxyId} {g : Option η}
    (ha : h.rebinds? a = some (id, g)) :
    (∃ i g', a = .op (.set i g') ∧ i.side = h.endpoint.side ∧ i.id = id) ∨
      (∃ i, a = .op (.unset i) ∧ i.id = id) ∨
        (∃ g', a = .op (.register id g')) ∨ a = .op (.unregister id) := by
  cases a with
  | op op =>
      cases op with
      | set i g' =>
          simp only [rebinds?] at ha
          split at ha
          · next hside => exact Or.inl ⟨i, g', rfl, hside, congrArg Prod.fst (Option.some.inj ha)⟩
          · cases ha
      | unset i => exact Or.inr (Or.inl ⟨i, rfl, congrArg Prod.fst (Option.some.inj ha)⟩)
      | register id' g' =>
          obtain rfl := congrArg Prod.fst (Option.some.inj ha)
          exact Or.inr (Or.inr (Or.inl ⟨g', rfl⟩))
      | unregister id' =>
          obtain rfl := congrArg Prod.fst (Option.some.inj ha)
          exact Or.inr (Or.inr (Or.inr rfl))
      | _ => cases ha
  | _ => cases ha

theorem registry_attempt (h : Host η) {r : Except CallError (Endpoint.Step η)}
    (hr : ∀ s, r = .ok s → s.1.registry = h.endpoint.registry) :
    (h.attempt r).1.endpoint.registry = h.endpoint.registry := by
  cases r with
  | error err => rfl
  | ok s => exact hr s rfl

theorem registry_onCall (h : Host η) (k : Nat) {f : Call → Call × Endpoint.Step η}
    (hf : ∀ c, (f c).2.1.registry = h.endpoint.registry) :
    (h.onCall k f).1.endpoint.registry = h.endpoint.registry := by
  unfold onCall
  split
  · rfl
  · next q _ => exact hf q.call

theorem registry_operate (h : Host η) (o : Op η) :
    (h.operate o).1.endpoint.registry =
      ((h.rebinds? (.op o)).map h.endpoint.registry.rebind).getD h.endpoint.registry := by
  cases o with
  | invoke i method args =>
      rw [operate_invoke]
      split
      · rfl
      · split
        · rfl
        · exact h.endpoint.registry_request i.id method args
  | request proxy method args =>
      simp only [operate]
      split
      · rfl
      · exact h.endpoint.registry_request proxy method args
  | notify i method args =>
      exact h.registry_attempt fun s hs =>
        Endpoint.registry_notifyProxy (Endpoint.notify_eq_ok hs)
  | notifyProxy proxy method args =>
      exact h.registry_attempt fun s hs => Endpoint.registry_notifyProxy hs
  | cancel k => exact h.registry_onCall k fun c => c.registry_cancelWith .cancelled h.endpoint
  | drop k => exact h.registry_onCall k fun c => c.registry_drop h.endpoint
  | poll k => exact h.registry_onCall k fun c => c.registry_poll h.now h.endpoint
  | set i g =>
      rw [operate_set, rebinds?]
      by_cases hside : i.side = h.endpoint.side
      · rw [if_pos hside, if_pos hside]
        rfl
      · rw [if_neg hside, if_neg hside]
        rfl
  | conclude serial o =>
      simp only [operate]
      split <;> rfl
  | stop serial => exact h.endpoint.registry_fire serial
  | reap serial =>
      simp only [operate]
      split
      · rfl
      · exact h.endpoint.registry_finish serial _
  | close => exact h.endpoint.registry_close
  | _ => rfl

variable [Handler η]

/-- **The registry after an act.** -/
theorem registry_step (h : Host η) (a : Act η) :
    (h.step a).1.endpoint.registry =
      ((h.rebinds? a).map h.endpoint.registry.rebind).getD h.endpoint.registry := by
  cases a with
  | op o => exact h.registry_operate o
  | receive frame => exact h.endpoint.registry_receive frame
  | take =>
      simp only [step]
      split
      · next o e _ he =>
          obtain ⟨-, rest, -, rfl⟩ := Endpoint.dequeue_eq_some.mp he
          rfl
      · rfl
  | sent r =>
      simp only [step]
      split
      · rfl
      · rfl
      · next o err _ =>
          show (if err.isTerminal then h.endpoint.close
              else h.endpoint.undeliverable o err).1.registry = h.endpoint.registry
          split
          · exact h.endpoint.registry_close
          · exact h.endpoint.registry_undeliverable o err

/-- Which handler serves an id after an act. -/
theorem get?_step (h : Host η) (a : Act η) (id : ProxyId) :
    (h.step a).1.endpoint.registry.get? id =
      match h.rebinds? a with
      | some (id', g) => if id' = id then g else h.endpoint.registry.get? id
      | none => h.endpoint.registry.get? id := by
  rw [registry_step]
  cases h.rebinds? a with
  | none => rfl
  | some b => exact h.endpoint.registry.get?_rebind b id

end Host

/-! ## Histories -/

namespace Moment

/-- The act gives an id another handler, or none. -/
def Rebinds (m : Moment η) (id : ProxyId) (g : Option η) : Prop :=
  m.host.rebinds? m.act = some (id, g)

end Moment

namespace Chronicle

/-- The handler is the last one that was registered under the id, and has not been removed since. -/
def Registered (past : List (Moment η)) (id : ProxyId) (g : η) : Prop :=
  ∃ before m after, past = before ++ m :: after ∧ m.Rebinds id (some g) ∧
    ∀ m' ∈ after, ∀ g', ¬ m'.Rebinds id g'

theorem not_registered_nil (id : ProxyId) (g : η) : ¬ Registered [] id g := by
  rintro ⟨before, m, after, hpast, -⟩
  exact List.cons_ne_nil _ _ (List.append_eq_nil_iff.mp hpast.symm).2

/-- One more act gives the id the handler, or leaves the id alone. -/
theorem registered_concat {past : List (Moment η)} {m : Moment η} {id : ProxyId} {g : η} :
    Registered (past ++ [m]) id g ↔
      m.Rebinds id (some g) ∨ (∀ g', ¬ m.Rebinds id g') ∧ Registered past id g := by
  constructor
  · rintro ⟨before, m₀, after, hpast, hbinds, hleft⟩
    cases after using List.reverseRecOn with
    | nil =>
        obtain ⟨-, rfl⟩ := List.append_inj' hpast rfl |>.imp_right fun h => (List.cons.inj h).1
        exact Or.inl hbinds
    | append_singleton after m' =>
        rw [← List.cons_append, ← List.append_assoc] at hpast
        obtain ⟨rfl, hm⟩ := List.append_inj' hpast rfl
        obtain rfl := List.singleton_inj.mp hm
        refine Or.inr ⟨hleft m (List.mem_append_right _ List.mem_cons_self), before, m₀, after, rfl,
          hbinds, fun m' hm' => hleft m' (List.mem_append_left _ hm')⟩
  · rintro (hbinds | ⟨hleft, before, m₀, after, rfl, hbinds, hafter⟩)
    · exact ⟨past, m, [], rfl, hbinds, fun m' hm' => absurd hm' List.not_mem_nil⟩
    · refine ⟨before, m₀, after ++ [m], by simp, hbinds, fun m' hm' => ?_⟩
      rcases List.mem_append.mp hm' with hm' | hm'
      · exact hafter m' hm'
      · rw [List.mem_singleton.mp hm']
        exact hleft

variable [Handler η]

/-- **Whoever was registered last serves.** An id is served by a handler exactly if the handler was
the last to be registered under it, through the endpoint or directly, and has not been removed
since. -/
theorem serves_iff (c : Config) (acts : List (Act η)) (id : ProxyId) (g : η) :
    ((ofConfig c).run acts).host.endpoint.registry.get? id = some g ↔
      Registered ((ofConfig c).run acts).past id g := by
  refine run_induction (P := fun x => x.host.endpoint.registry.get? id = some g ↔
    Registered x.past id g) ?_ ?_ acts
  · exact ⟨fun h => absurd h (Option.some_ne_none g).symm, fun h => absurd h (not_registered_nil id g)⟩
  · intro x a ih
    rw [past_act, registered_concat, host_act, Host.get?_step, ← ih]
    unfold Moment.Rebinds
    cases x.host.rebinds? a with
    | none => simp
    | some b =>
        obtain ⟨id', g'⟩ := b
        by_cases hid : id' = id <;> simp [hid]

end Chronicle

end PeerRpc
