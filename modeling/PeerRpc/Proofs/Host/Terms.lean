import PeerRpc.Proofs.Host.Lasting

/-!
# PeerRpc.Proofs.Host.Terms -- the terms on which calls are made

A host keeps its settings, its clock never goes back, and a call keeps its place and its terms: its
id, its limit and the time from which its deadline counts. What becomes of a call otherwise is that
events give it a result, and that a look for the result returns one (`Host.returns`), after which
the call counts as returned. `Host.continues_step` says so of every act.

So the terms of a call are those on which it was made, whatever has happened since
(`Chronicle.made_run`).
-/

namespace PeerRpc

variable {η : Type}

namespace Endpoint

@[simp] theorem config_request (e : Endpoint η) (proxy : ProxyId) (method : String)
    (args : List Value) : (e.request proxy method args).2.1.config = e.config := by
  cases hr : e.refusal? proxy method args with
  | some err => rw [request_of_refusal hr]
  | none => rw [request_of_none hr]

end Endpoint

namespace Call

/-- A look at a call that comes to something returns it. -/
theorem settled_poll (c : Call) (now : Nat) (e : Endpoint η) :
    (c.poll now e).2.1.settled = (c.settled || (c.poll now e).1.isSome) := by
  cases c.polled now e with
  | delivered r hd poll =>
      rw [poll]
      exact (Bool.or_true _).symm
  | late d hn limit late poll =>
      rw [poll]
      exact (Bool.or_true _).symm
  | early hn poll =>
      rw [poll]
      exact (Bool.or_false _).symm

/-- Events return nothing. -/
theorem settled_hears (events : List (Event η)) (c : Call) :
    (events.foldl Call.hear c).settled = c.settled := by
  induction events generalizing c with
  | nil => rfl
  | cons x events ih =>
      refine (ih _).trans ?_
      unfold Call.hear
      split
      · split <;> rfl
      · rfl

end Call

/-- The act is a look for the result of a call. -/
def Act.looks : Act η → Bool
  | .op (.poll _) => true
  | _ => false

namespace Host

/-- Whether the act is a look for the result of the call `k`, and finds one or ends the call. -/
def returns (h : Host η) (k : Nat) (q : Asked) : Act η → Bool
  | .op (.poll k') => k' = k && (q.call.poll h.now h.endpoint).1.isSome
  | _ => false

theorem returns_of_not_looks {h : Host η} {a : Act η} (ha : a.looks = false) (k : Nat)
    (q : Asked) : h.returns k q a = false := by
  unfold returns
  split
  · cases ha
  · rfl

theorem returns_self (h : Host η) (k : Nat) (q : Asked) :
    h.returns k q (.op (.poll k)) = (q.call.poll h.now h.endpoint).1.isSome := by
  rw [returns, decide_eq_true rfl, Bool.true_and]

theorem returns_of_ne {h : Host η} {k k' : Nat} (hne : k' ≠ k) (q : Asked) :
    h.returns k q (.op (.poll k')) = false := by
  rw [returns, decide_eq_false hne, Bool.false_and]

/-- The call `q` after an act, on the same terms. -/
structure Carries (h : Host η) (a : Act η) (k : Nat) (q q' : Asked) : Prop where
  alike : q.call.Alike q'.call
  settled : q'.call.settled = (q.call.settled || h.returns k q a)

/-- The call `q` has just been made. -/
structure Makes (h : Host η) (q : Asked) : Prop where
  settled : q.call.settled = false
  limit : ∀ id, q.call.id = some id → q.call.limit = h.endpoint.config.requestTimeout
  started : ∀ id, q.call.id = some id → q.call.started = h.now

/-- What an act leaves as it is, and where the calls stand after it. -/
structure Continues (h : Host η) (a : Act η) (x : Host η × List (Event η)) : Prop where
  config : x.1.endpoint.config = h.endpoint.config
  now : h.now ≤ x.1.now
  earlier : ∀ (k : Nat) (q : Asked), h.calls[k]? = some q →
    ∃ q', x.1.calls[k]? = some q' ∧ h.Carries a k q q'
  new : ∀ (k : Nat) (q' : Asked), h.calls[k]? = none → x.1.calls[k]? = some q' → h.Makes q'

namespace Continues

variable {h : Host η} {a : Act η}

theorem of_silent {h' : Host η} (ha : a.looks = false)
    (hc : h'.endpoint.config = h.endpoint.config) (hn : h.now ≤ h'.now)
    (hcalls : h'.calls = h.calls) : h.Continues a (h', []) where
  config := hc
  now := hn
  earlier := by
    intro k q hq
    refine ⟨q, hcalls ▸ hq, .refl _, ?_⟩
    rw [returns_of_not_looks ha, Bool.or_false]
  new := by
    intro k q' hq hq'
    have hsame : h.calls[k]? = some q' := hcalls ▸ hq'
    rw [hq] at hsame
    cases hsame

theorem carries_hear (ha : a.looks = false) (events : List (Event η)) (k : Nat)
    (q : Asked) : h.Carries a k q (q.hear events) where
  alike := .hears events q.call
  settled := by
    rw [returns_of_not_looks ha, Bool.or_false]
    exact Call.settled_hears events q.call

/-- The calls hear of a step of the endpoint. -/
theorem follow_of_eq (ha : a.looks = false) {h₀ : Host η} (hn : h₀.now = h.now)
    (hcalls : h₀.calls = h.calls) {s : Endpoint.Step η} (hs : s.1.config = h.endpoint.config) :
    h.Continues a (h₀.follow s) where
  config := hs
  now := Nat.le_of_eq hn.symm
  earlier := by
    intro k q hq
    refine ⟨q.hear s.2, ?_, carries_hear ha s.2 k q⟩
    show (h₀.calls.map (Asked.hear s.2))[k]? = _
    rw [hcalls, List.getElem?_map, hq]
    rfl
  new := by
    intro k q' hq hq'
    have hmap : (h₀.calls.map (Asked.hear s.2))[k]? = some q' := hq'
    rw [hcalls, List.getElem?_map, hq] at hmap
    cases hmap

theorem follow (ha : a.looks = false) {s : Endpoint.Step η}
    (hs : s.1.config = h.endpoint.config) : h.Continues a (h.follow s) :=
  follow_of_eq ha rfl rfl hs

theorem attempt (ha : a.looks = false) {r : Except CallError (Endpoint.Step η)}
    (hr : ∀ s, r = .ok s → s.1.config = h.endpoint.config) : h.Continues a (h.attempt r) := by
  cases r with
  | error err => exact .of_silent ha rfl (Nat.le_refl _) rfl
  | ok s => exact .follow ha (hr s rfl)

/-- One more call. -/
theorem append (ha : a.looks = false) {x : Host η × List (Event η)} {q : Asked}
    (hc : x.1.endpoint.config = h.endpoint.config) (hn : x.1.now = h.now)
    (hcalls : x.1.calls = (h.calls ++ [q]).map (Asked.hear x.2))
    (hmakes : h.Makes (q.hear x.2)) : h.Continues a x where
  config := hc
  now := Nat.le_of_eq hn.symm
  earlier := by
    intro k q' hq'
    refine ⟨q'.hear x.2, ?_, carries_hear ha x.2 k q'⟩
    have hlt := (List.getElem?_eq_some_iff.mp hq').1
    rw [hcalls, List.getElem?_map, List.getElem?_append_left hlt, hq']
    rfl
  new := by
    intro k q' hnone hq'
    have hle := List.getElem?_eq_none_iff.mp hnone
    rw [hcalls, List.getElem?_map, List.getElem?_append_right hle] at hq'
    obtain ⟨q'', hlast, rfl⟩ := Option.map_eq_some_iff.mp hq'
    obtain rfl := List.mem_singleton.mp (List.mem_of_getElem? hlast)
    exact hmakes

theorem begin (ha : a.looks = false) (proxy : ProxyId) (method : String)
    (args : List Value) :
    h.Continues a (h.begin proxy method args (h.endpoint.request proxy method args)) := by
  refine .append (q := ⟨proxy, method, args, { id := some _, limit := _, started := _ }⟩) ha ?_ rfl
    rfl ⟨?_, fun id _ => ?_, fun id _ => ?_⟩
  · exact Endpoint.config_request h.endpoint proxy method args
  · exact Call.settled_hears _ _
  · exact (Call.Alike.hears _ _).limit
  · exact (Call.Alike.hears _ _).started

/-- A step of one of the calls, which keeps its terms. -/
theorem onCall {k' : Nat} {f : Call → Call × Endpoint.Step η}
    (hc : ∀ c, (f c).2.1.config = h.endpoint.config) (hf : ∀ c : Call, c.Alike (f c).1)
    (hself : ∀ q, (f q.call).1.settled = (q.call.settled || h.returns k' q a))
    (hother : ∀ k q, k' ≠ k → h.returns k q a = false) : h.Continues a (h.onCall k' f) := by
  have hsame {k : Nat} {q : Asked} (hne : k' ≠ k) : h.Carries a k q q :=
    ⟨.refl _, by rw [hother k q hne, Bool.or_false]⟩
  have hhear {k : Nat} {q q' : Asked} (hq' : h.Carries a k q q') (events : List (Event η)) :
      h.Carries a k q (q'.hear events) :=
    ⟨hq'.alike.trans (.hears events _), (Call.settled_hears events _).trans hq'.settled⟩
  unfold Host.onCall
  split
  · next hnone =>
      refine ⟨rfl, Nat.le_refl _, fun k q hq => ⟨q, hq, hsame ?_⟩, fun k q' hq hq' => ?_⟩
      · rintro rfl
        cases hnone.symm.trans hq
      · cases hq.symm.trans hq'
  · next q₀ hq₀ =>
      -- the call is put back, and then all calls hear of the step
      refine ⟨hc q₀.call, Nat.le_refl _, fun k q hq => ?_, fun k q' hq hq' => ?_⟩
      · show ∃ q', ((h.calls.set k' _).map (Asked.hear (f q₀.call).2.2))[k]? = some q' ∧ _
        rw [List.getElem?_map]
        by_cases hk : k' = k
        · subst hk
          obtain rfl := Option.some.inj (hq₀.symm.trans hq)
          rw [List.getElem?_set_self (List.getElem?_eq_some_iff.mp hq).1]
          exact ⟨_, rfl, hhear ⟨hf q₀.call, hself q₀⟩ _⟩
        · rw [List.getElem?_set_ne hk, hq]
          exact ⟨_, rfl, hhear (hsame hk) _⟩
      · have hlen : k < ((h.calls.set k' _).map (Asked.hear (f q₀.call).2.2)).length :=
          (List.getElem?_eq_some_iff.mp hq').1
        rw [List.length_map, List.length_set] at hlen
        exact absurd hlen (Nat.not_lt.mpr (List.getElem?_eq_none_iff.mp hq))

end Continues

/-! ## Every act -/

theorem continues_operate (h : Host η) (o : Op η) : h.Continues (.op o) (h.operate o) := by
  cases o with
  | invoke i method args =>
      rw [operate_invoke]
      split
      · exact .of_silent rfl rfl (Nat.le_refl _) rfl
      · split
        · have hnone (id : RequestId) :
              (Call.failed (h.endpoint.wrongSide i .proxied)).id ≠ some id :=
            (Option.some_ne_none id).symm
          exact .append rfl rfl rfl (List.map_id _).symm
            ⟨rfl, fun id hid => absurd hid (hnone id), fun id hid => absurd hid (hnone id)⟩
        · exact .begin rfl _ _ _
  | request proxy method args =>
      simp only [operate]
      split
      · exact .of_silent rfl rfl (Nat.le_refl _) rfl
      · exact .begin rfl _ _ _
  | notify i method args =>
      exact .attempt rfl fun s hs => (Endpoint.regular_notify hs).config
  | notifyProxy proxy method args =>
      exact .attempt rfl fun s hs => (Endpoint.regular_notifyProxy hs).config
  | cancel k =>
      show h.Continues _ (h.onCall k fun c => (c, (c.cancel h.endpoint).2))
      exact .onCall (fun c => (c.regular_cancel .cancelled h.endpoint).config) .refl
        (fun q => (Bool.or_false _).symm) fun _ _ _ => rfl
  | drop k =>
      show h.Continues _ (h.onCall k fun c => (c, c.drop h.endpoint))
      exact .onCall (fun c => (c.regular_drop h.endpoint).config) .refl
        (fun q => (Bool.or_false _).symm) fun _ _ _ => rfl
  | poll k =>
      show h.Continues _ (h.onCall k fun c => (c.poll h.now h.endpoint).2)
      refine .onCall (fun c => (c.regular_poll h.now h.endpoint).config)
        (fun c => .poll c h.now h.endpoint) (fun q => ?_) fun k' q hne => ?_
      · rw [Call.settled_poll, returns_self]
      · exact returns_of_ne hne q
  | wait ms => exact .of_silent rfl rfl (Nat.le_add_right _ _) rfl
  | set i handler =>
      rw [operate_set]
      split <;> exact .of_silent rfl rfl (Nat.le_refl _) rfl
  | conclude serial out =>
      simp only [operate]
      split <;> exact .of_silent rfl rfl (Nat.le_refl _) rfl
  | stop serial => exact .follow rfl (h.endpoint.regular_fire serial).config
  | reap serial =>
      simp only [operate]
      split
      · exact .of_silent rfl rfl (Nat.le_refl _) rfl
      · exact .follow rfl (h.endpoint.regular_finish serial _).config
  | close => exact .follow rfl h.endpoint.regular_close.config
  | _ => exact .of_silent rfl rfl (Nat.le_refl _) rfl

variable [Handler η]

/-- **Every act keeps the settings of the host and the terms of its calls.** -/
theorem continues_step (h : Host η) (a : Act η) : h.Continues a (h.step a) := by
  cases a with
  | op o => exact h.continues_operate o
  | receive frame => exact .follow rfl (h.endpoint.regular_receive frame).config
  | take =>
      simp only [step]
      split
      · next o e _ he =>
          obtain ⟨-, rest, -, rfl⟩ := Endpoint.dequeue_eq_some.mp he
          exact .of_silent rfl rfl (Nat.le_refl _) rfl
      · exact .of_silent rfl rfl (Nat.le_refl _) rfl
  | sent r =>
      simp only [step]
      split
      · exact .of_silent rfl rfl (Nat.le_refl _) rfl
      · exact .of_silent rfl rfl (Nat.le_refl _) rfl
      · next o err _ =>
          have hconfig : (if err.isTerminal then h.endpoint.close
              else h.endpoint.undeliverable o err).1.config = h.endpoint.config := by
            split
            · exact h.endpoint.regular_close.config
            · exact (h.endpoint.regular_undeliverable o err).config
          refine .follow_of_eq ?_ ?_ ?_ hconfig <;> rfl

end Host

namespace Chronicle

variable [Handler η]

/-- The call `k` was made at a moment of the past, and has the terms of that moment. -/
structure Made (c : Config) (x : Chronicle η) (k : Nat) (q : Asked) (m : Moment η) : Prop where
  past : m ∈ x.past
  before : m.host.calls[k]? = none
  after : (m.after.calls[k]?).isSome = true
  limit : ∀ id, q.call.id = some id → q.call.limit = c.requestTimeout
  started : ∀ id, q.call.id = some id → q.call.started = m.host.now
  now : m.host.now ≤ x.host.now

theorem config_run (c : Config) (acts : List (Act η)) :
    ((ofConfig c).run acts).host.endpoint.config = c := by
  refine run_induction (P := fun x => x.host.endpoint.config = c) rfl ?_ acts
  intro x a hx
  exact (x.host.continues_step a).config.trans hx

/-- **A call keeps the terms on which it was made.** -/
theorem made_run (c : Config) (acts : List (Act η)) {k : Nat} {q : Asked}
    (hq : ((ofConfig c).run acts).host.calls[k]? = some q) :
    ∃ m, Made c ((ofConfig c).run acts) k q m := by
  refine (run_induction (P := fun x => x.host.endpoint.config = c ∧
    ∀ k q, x.host.calls[k]? = some q → ∃ m, Made c x k q m)
    ⟨rfl, fun _ _ hnone => absurd hnone (Option.some_ne_none _).symm⟩ ?_ acts).2 k q hq
  rintro x a ⟨hconfig, hx⟩
  have hcontinues := x.host.continues_step a
  refine ⟨hcontinues.config.trans hconfig, fun k q' hq' => ?_⟩
  cases hq : x.host.calls[k]? with
  | some q =>
      obtain ⟨q'', hq'', hcarries⟩ := hcontinues.earlier k q hq
      obtain rfl := Option.some.inj (hq'.symm.trans hq'')
      obtain ⟨m, hm⟩ := hx k q hq
      have hid {id : RequestId} (h : q'.call.id = some id) : q.call.id = some id :=
        hcarries.alike.id.symm.trans h
      exact ⟨m, List.mem_append_left _ hm.past, hm.before, hm.after,
        fun id h => hcarries.alike.limit.trans (hm.limit id (hid h)),
        fun id h => hcarries.alike.started.trans (hm.started id (hid h)),
        Nat.le_trans hm.now hcontinues.now⟩
  | none =>
      have hmakes := hcontinues.new k q' hq hq'
      refine ⟨⟨x.host, a⟩, List.mem_append_right _ (List.mem_singleton_self _), hq, ?_,
        fun id h => (hmakes.limit id h).trans (congrArg Config.requestTimeout hconfig),
        hmakes.started, hcontinues.now⟩
      show ((x.act a).host.calls[k]?).isSome = true
      rw [hq']
      rfl

end Chronicle

end PeerRpc
