import PeerRpc.Proofs.Host.Offers
import PeerRpc.Proofs.Host.Registrations
import PeerRpc.Proofs.Host.Terms
import PeerRpc.Service.Kit

/-!
# PeerRpc.Proofs.Host.Sides -- identifiers of the wrong side

Both sides number their services alike, and only the number of a service goes over the wire. That a
service of one side is not taken for one of the other is up to the endpoint, which looks at the side
of an identifier when a service is hosted, called or notified, and when somebody takes a proxy.

Users come by the number of a service of the other side only through an identifier or through a
proxy that they have been handed for one. A `Clientele` is an endpoint with such users. Whatever
they do, a request or a notification that is queued is for a service that was named by an identifier
of the other side (`Clientele.names_of_queues`), and an identifier of the wrong side leaves the
endpoint as it was. The exception is the removal of a service, which looks at no side:
it removes what is hosted under the number (`Clientele.unset_ignores_side`).
-/

namespace PeerRpc

variable {η : Type}

/-- The service of the other side that a message is for. -/
def Message.service? : Message → Option ProxyId
  | .request _ proxy .. => some proxy
  | .notification proxy .. => some proxy
  | _ => none

/-- An answer is for no service. -/
@[simp] theorem Outcome.service?_message (id : RequestId) (out : Outcome) :
    (out.message id).service? = none := by
  rcases out.message_cases id with ⟨v, h⟩ | ⟨err, h⟩ <;> rw [h] <;> rfl

/-! ## The look at the side of an identifier -/

namespace Endpoint

variable {e : Endpoint η} {i : Identifier}

theorem set_of_other (h : i.side ≠ e.side) (g : η) : e.set i g = .error (e.wrongSide i .hosted) :=
  if_pos h

theorem proxyFor_of_own (h : i.side = e.side) : e.proxyFor i = .error (e.wrongSide i .proxied) :=
  if_pos h

theorem invoke_of_own (h : i.side = e.side) (method : String) (args : List Value) :
    e.invoke i method args = .error (e.wrongSide i .proxied) := by
  rw [invoke, proxyFor_of_own h]
  rfl

theorem notify_of_own (h : i.side = e.side) (method : String) (args : List Value) :
    e.notify i method args = .error (e.wrongSide i .proxied) := by
  rw [notify, proxyFor_of_own h]
  rfl

end Endpoint

namespace Host

variable [Handler η] {h : Host η} {i : Identifier}

theorem step_set_of_other (hi : i.side ≠ h.endpoint.side) (g : η) :
    h.step (.op (.set i g)) = (h, []) := by
  rw [step, operate_set, if_neg hi]

/-- A call of a service of the own side is noted, and leaves the endpoint as it was. -/
theorem step_invoke_of_own (hi : i.side = h.endpoint.side) (method : String) (args : List Value) :
    (h.step (.op (.invoke i method args))).1.endpoint = h.endpoint ∧
      (h.step (.op (.invoke i method args))).2 = [] := by
  rw [step, operate_invoke, if_pos hi]
  split <;> exact ⟨rfl, rfl⟩

theorem step_notify_of_own (hi : i.side = h.endpoint.side) (method : String) (args : List Value) :
    h.step (.op (.notify i method args)) = (h, []) := by
  simp only [step, operate, Endpoint.notify_of_own hi, attempt]

end Host

/-! ## What an act sends to services -/

namespace Host

/-- The number of the service of the other side that an act is meant for. -/
def reaches? : Act η → Option ProxyId
  | .op (.invoke i ..) => some i.id
  | .op (.request proxy ..) => some proxy
  | .op (.notify i ..) => some i.id
  | .op (.notifyProxy proxy ..) => some proxy
  | _ => none

/-- The act calls or notifies a service of the side of the endpoint itself. -/
def Own (h : Host η) : Act η → Prop
  | .op (.invoke i ..) => i.side = h.endpoint.side
  | .op (.notify i ..) => i.side = h.endpoint.side
  | _ => False

/-- **Only calls and notifications send messages to services**, and only to those that they are
meant for, which are none of the own side. -/
theorem reaches_of_queues [Handler η] {h : Host η} {a : Act η} {o : Outbound} {proxy : ProxyId}
    (hq : h.queues? a = some o) (ho : o.message.service? = some proxy) :
    reaches? a = some proxy ∧ ¬ h.Own a := by
  cases posting hq with
  | request proxy' method args message next granted step op =>
      subst message
      obtain rfl : proxy' = proxy := Option.some.inj ho
      rcases op with rfl | ⟨i, rfl, rfl⟩
      · exact ⟨rfl, id⟩
      · refine ⟨rfl, fun hown => ?_⟩
        have hside : i.side = h.endpoint.side := hown
        rw [queues?_invoke, if_pos (Or.inr hside)] at hq
        cases hq
  | notification proxy' method args message encodes op =>
      subst message
      obtain rfl : proxy' = proxy := Option.some.inj ho
      rcases op with rfl | ⟨i, rfl, rfl⟩
      · exact ⟨rfl, id⟩
      · refine ⟨rfl, fun hown => ?_⟩
        have hside : i.side = h.endpoint.side := hown
        rw [queues?_notify, if_pos hside] at hq
        cases hq
  | outcome id r out message ends =>
      subst message
      rw [Outcome.service?_message] at ho
      cases ho
  | _ => subst_vars; cases ho

end Host

/-! ## Users who name services by identifiers -/

/-- What happens at an endpoint whose users name services by identifiers. -/
inductive Use (η : Type) where
  /-- Somebody takes a proxy for a service. -/
  | proxy (i : Identifier)
  /-- Somebody calls a method through a proxy, which is named by the place at which it was handed
  out. -/
  | call (k : Nat) (method : String) (args : List Value)
  /-- Somebody sends a notification through a proxy. -/
  | tell (k : Nat) (method : String) (args : List Value)
  /-- Anything else happens. -/
  | act (a : Act η)

/-- Whether an act names a service of the other side by its bare number. -/
def Act.isBare : Act η → Bool
  | .op (.request ..) => true
  | .op (.notifyProxy ..) => true
  | _ => false

/-- An endpoint with its past and with the services that its users have been handed proxies for. -/
structure Clientele (η : Type) where
  chronicle : Chronicle η
  proxies : List Identifier := []

namespace Clientele

/-- An endpoint that has just been opened. -/
def ofConfig (c : Config) : Clientele η := { chronicle := .ofConfig c }

/-- The endpoint itself. -/
def endpoint (x : Clientele η) : Endpoint η := x.chronicle.host.endpoint

/-- What is done at the endpoint, if anything. Nobody has bare numbers. -/
def act? (x : Clientele η) : Use η → Option (Act η)
  | .proxy _ => none
  | .call k method args => (x.proxies[k]?).map fun i => .op (.request i.id method args)
  | .tell k method args => (x.proxies[k]?).map fun i => .op (.notifyProxy i.id method args)
  | .act a => if a.isBare then none else some a

/-- The service for which a proxy is handed out. -/
def handsOut? (x : Clientele η) : Use η → Option Identifier
  | .proxy i => (x.endpoint.proxyFor i).toOption.map fun _ => i
  | _ => none

/-- The identifier by which a service is named that is to be called or notified. -/
def names? (x : Clientele η) : Use η → Option Identifier
  | .call k .. => x.proxies[k]?
  | .tell k .. => x.proxies[k]?
  | .act (.op (.invoke i ..)) => some i
  | .act (.op (.notify i ..)) => some i
  | _ => none

theorem act?_act {x : Clientele η} {a a' : Act η} (h : x.act? (.act a') = some a) :
    a'.isBare = false ∧ a' = a := by
  simpa [act?] using h

/-- A proxy is of no use to change what is hosted. -/
theorem exists_act_of_rebinds {x : Clientele η} {u : Use η} {a : Act η} {b : ProxyId × Option η}
    (ha : x.act? u = some a) (hb : x.chronicle.host.rebinds? a = some b) : u = .act a := by
  cases u with
  | proxy i => cases ha
  | call k method args =>
      obtain ⟨i, -, rfl⟩ := Option.map_eq_some_iff.mp ha
      cases hb
  | tell k method args =>
      obtain ⟨i, -, rfl⟩ := Option.map_eq_some_iff.mp ha
      cases hb
  | act a' => rw [(act?_act ha).2]

variable [Handler η]

/-- One more use. -/
def use (u : Use η) (x : Clientele η) : Clientele η where
  chronicle := (x.act? u).elim x.chronicle fun a => x.chronicle.act a
  proxies := x.proxies ++ (x.handsOut? u).toList

/-- The events of a use. -/
def events (x : Clientele η) (u : Use η) : List (Event η) :=
  (x.act? u).elim [] fun a => (x.chronicle.host.step a).2

/-- Some more uses. -/
def run (us : List (Use η)) (x : Clientele η) : Clientele η := us.foldl (fun x u => x.use u) x

theorem run_concat (us : List (Use η)) (u : Use η) (x : Clientele η) :
    x.run (us ++ [u]) = (x.run us).use u := by
  simp only [run, List.foldl_append, List.foldl_cons, List.foldl_nil]

theorem events_use (u : Use η) (x : Clientele η) :
    (x.use u).chronicle.events = x.chronicle.events ++ x.events u := by
  unfold use events
  cases x.act? u with
  | none => exact (List.append_nil _).symm
  | some a => exact Chronicle.events_act a x.chronicle

/-- What users do is what anybody can do. -/
theorem exists_acts (c : Config) (us : List (Use η)) :
    ∃ acts, ((ofConfig c).run us).chronicle = (Chronicle.ofConfig c).run acts := by
  induction us using List.reverseRecOn with
  | nil => exact ⟨[], rfl⟩
  | append_singleton us u ih =>
      obtain ⟨acts, hacts⟩ := ih
      rw [run_concat, use, hacts]
      cases ((ofConfig c).run us).act? u with
      | none => exact ⟨acts, rfl⟩
      | some a => exact ⟨acts ++ [a], (Chronicle.run_concat acts a _).symm⟩

/-! ## Proxies -/

/-- No proxy is for a service of the own side. -/
theorem proxies_use {x : Clientele η} (hx : ∀ i ∈ x.proxies, i.side ≠ x.endpoint.side)
    (u : Use η) : ∀ i ∈ (x.use u).proxies, i.side ≠ x.endpoint.side := by
  intro i hi
  rcases List.mem_append.mp hi with hi | hi
  · exact hx i hi
  · -- a proxy is handed out only after a look at the side
    cases u with
    | proxy i' =>
        obtain ⟨proxy, hproxy, rfl⟩ := Option.map_eq_some_iff.mp (Option.mem_toList.mp hi)
        unfold Endpoint.proxyFor at hproxy
        split at hproxy
        · cases hproxy
        · next hside => exact hside
    | _ => cases hi

theorem side_run (c : Config) (us : List (Use η)) :
    ((ofConfig c).run us).endpoint.side = c.side := by
  obtain ⟨acts, hacts⟩ := exists_acts c us
  unfold endpoint Endpoint.side
  rw [hacts, Chronicle.config_run]

/-- **Proxies are for services of the other side.** -/
theorem proxies_run (c : Config) (us : List (Use η)) :
    ∀ i ∈ ((ofConfig c).run us).proxies, i.side ≠ c.side := by
  induction us using List.reverseRecOn with
  | nil => exact fun i hi => absurd hi List.not_mem_nil
  | append_singleton us u ih =>
      rw [run_concat, ← side_run c us]
      rw [← side_run c us] at ih
      exact proxies_use ih u

theorem sound_run (c : Config) (us : List (Use η)) :
    ((ofConfig c).run us).chronicle.host.Sound := by
  obtain ⟨acts, hacts⟩ := exists_acts c us
  rw [hacts]
  exact (Chronicle.invariant (P := Host.Sound) (Host.sound_ofConfig c)
    (fun _ a hh => hh.step a) acts).1

/-! ## Services that are called -/

/-- **A message to a service is for one of the other side.** Whoever had it queued named the service
by an identifier of the other side. -/
theorem names_of_queues (c : Config) (us : List (Use η)) {u : Use η} {o : Outbound}
    {proxy : ProxyId} (ho : o ∈ queuedIn (((ofConfig c).run us).events u))
    (hproxy : o.message.service? = some proxy) :
    ∃ i, ((ofConfig c).run us).names? u = some i ∧ i.side ≠ c.side ∧ i.id = proxy := by
  have hproxies := proxies_run c us
  have hside := side_run c us
  have hsound := sound_run c us
  generalize (ofConfig c).run us = x at ho hproxies hside hsound
  unfold events at ho
  cases ha : x.act? u with
  | none =>
      rw [ha] at ho
      cases ho
  | some a =>
      rw [ha] at ho
      replace ho : o ∈ queuedIn (x.chronicle.host.step a).2 := ho
      rw [hsound.queuedIn_step, Option.mem_toList] at ho
      obtain ⟨hreaches, hown⟩ := Host.reaches_of_queues ho hproxy
      cases u with
      | proxy i => cases ha
      | call k method args =>
          obtain ⟨i, hi, rfl⟩ := Option.map_eq_some_iff.mp ha
          exact ⟨i, hi, hproxies i (List.mem_of_getElem? hi), Option.some.inj hreaches⟩
      | tell k method args =>
          obtain ⟨i, hi, rfl⟩ := Option.map_eq_some_iff.mp ha
          exact ⟨i, hi, hproxies i (List.mem_of_getElem? hi), Option.some.inj hreaches⟩
      | act a' =>
          obtain ⟨hbare, rfl⟩ := act?_act ha
          -- of the acts that reach a service, those that are not bare have an identifier
          cases a' with
          | op op =>
              cases op with
              | invoke i method args => exact ⟨i, rfl, hside ▸ hown, Option.some.inj hreaches⟩
              | notify i method args => exact ⟨i, rfl, hside ▸ hown, Option.some.inj hreaches⟩
              | request proxy method args => cases hbare
              | notifyProxy proxy method args => cases hbare
              | _ => cases hreaches
          | _ => cases hreaches

/-- Whatever has been queued was queued by a use. -/
theorem exists_use (c : Config) {us : List (Use η)} {o : Outbound}
    (ho : o ∈ queuedIn ((ofConfig c).run us).chronicle.events) :
    ∃ before u after, us = before ++ u :: after ∧
      o ∈ queuedIn (((ofConfig c).run before).events u) := by
  induction us using List.reverseRecOn with
  | nil => cases ho
  | append_singleton us u ih =>
      rw [run_concat, events_use, queuedIn_append] at ho
      rcases List.mem_append.mp ho with ho | ho
      · obtain ⟨before, u', after, rfl, ho'⟩ := ih ho
        exact ⟨before, u', after ++ [u], by simp, ho'⟩
      · exact ⟨us, u, [], rfl, ho⟩

/-! ## Services that are hosted -/

/-- An id gets another handler, or none, by an act that says so. -/
theorem exists_rebinds {x : Clientele η} {u : Use η} {id : ProxyId}
    (h : (x.use u).endpoint.registry.get? id ≠ x.endpoint.registry.get? id) :
    ∃ a g, x.act? u = some a ∧ x.chronicle.host.rebinds? a = some (id, g) := by
  unfold use endpoint at h
  cases ha : x.act? u with
  | none =>
      rw [ha] at h
      exact absurd rfl h
  | some a =>
      rw [ha] at h
      replace h : (x.chronicle.host.step a).1.endpoint.registry.get? id ≠
        x.chronicle.host.endpoint.registry.get? id := h
      rw [Host.get?_step] at h
      split at h
      · next id' g hbinds =>
          split at h
          · next hid => exact ⟨a, g, rfl, hid ▸ hbinds⟩
          · exact absurd rfl h
      · exact absurd rfl h

/-! ## The whole story -/

/-- How far an identifier of the wrong side goes at an endpoint, after some uses of it. -/
structure Sides (c : Config) (us : List (Use η)) (x : Clientele η) : Prop where
  /-- A service of the other side is not hosted, and nothing changes. -/
  hosting : ∀ i g, i.side ≠ c.side →
    x.endpoint.set i g = .error (.wrongSide i.text .hosted c.side) ∧
      (x.use (.act (.op (.set i g)))).endpoint = x.endpoint ∧ x.events (.act (.op (.set i g))) = []
  /-- No proxy is handed out for a service of the own side. -/
  proxying : ∀ i, i.side = c.side →
    x.endpoint.proxyFor i = .error (.wrongSide i.text .proxied c.side) ∧ x.use (.proxy i) = x
  /-- A service of the own side is not called, and nothing changes. -/
  calling : ∀ i method args, i.side = c.side →
    x.endpoint.invoke i method args = .error (.wrongSide i.text .proxied c.side) ∧
      (x.use (.act (.op (.invoke i method args)))).endpoint = x.endpoint ∧
        x.events (.act (.op (.invoke i method args))) = []
  /-- A service of the own side is not notified, and nothing changes. -/
  telling : ∀ i method args, i.side = c.side →
    x.endpoint.notify i method args = .error (.wrongSide i.text .proxied c.side) ∧
      (x.use (.act (.op (.notify i method args)))).endpoint = x.endpoint ∧
        x.events (.act (.op (.notify i method args))) = []
  /-- The removal of a service looks at no side. What was hosted under the number is handed back and
  hosted no longer, and nothing else changes. -/
  removing : ∀ i,
    (∃ registry, (x.use (.act (.op (.unset i)))).endpoint =
        { x.endpoint with registry := registry } ∧
      ∀ id, registry.get? id = if i.id = id then none else x.endpoint.registry.get? id) ∧
      (x.endpoint.unset i).2 = x.endpoint.registry.get? i.id ∧
        x.events (.act (.op (.unset i))) = []
  /-- What an id is served by changes only if it is removed, is registered directly in the registry,
  or is the id of an identifier of the own side that is hosted. -/
  hosted : ∀ u id, (x.use u).endpoint.registry.get? id ≠ x.endpoint.registry.get? id →
    (∃ i g, u = .act (.op (.set i g)) ∧ i.side = c.side ∧ i.id = id) ∨
      (∃ i, u = .act (.op (.unset i)) ∧ i.id = id) ∨
        (∃ g, u = .act (.op (.register id g))) ∨ u = .act (.op (.unregister id))
  /-- Every request and every notification that has gone to the channel, or waits to, is for a
  service that was named by an identifier of the other side when the message was queued. -/
  leaving : ∀ o ∈ x.chronicle.offered ++ x.endpoint.outbound, ∀ id,
    o.message.service? = some id → ∃ before u after, us = before ++ u :: after ∧
      o ∈ queuedIn (((ofConfig c).run before).events u) ∧
        ∃ i, ((ofConfig c).run before).names? u = some i ∧ i.side ≠ c.side ∧ i.id = id

/-- **Sides are looked at, except when a service is removed.** -/
theorem sides (c : Config) (us : List (Use η)) : Sides c us ((ofConfig c).run us) := by
  have hside := side_run c us
  refine { hosting := ?hosting, proxying := ?proxying, calling := ?calling, telling := ?telling,
           removing := ?removing, hosted := ?hosted, leaving := ?leaving }
  case leaving =>
    intro o ho id hid
    obtain ⟨acts, hacts⟩ := exists_acts c us
    have hqueued := Chronicle.queuedIn_eq (η := η) c acts
    simp only [← hacts] at hqueued
    obtain ⟨before, u, after, rfl, ho'⟩ := exists_use c (hqueued ▸ ho)
    exact ⟨before, u, after, rfl, ho', names_of_queues c before ho' hid⟩
  all_goals
    generalize (ofConfig c).run us = x at hside ⊢
    generalize c.side = side at hside ⊢
    subst hside
  case hosting =>
    intro i g hi
    have hstep := Host.step_set_of_other (h := x.chronicle.host) hi g
    exact ⟨Endpoint.set_of_other hi g, congrArg (fun s => s.1.endpoint) hstep,
      congrArg Prod.snd hstep⟩
  case proxying =>
    intro i hi
    have herror := Endpoint.proxyFor_of_own hi
    have hnone : x.handsOut? (.proxy i) = none := by
      rw [handsOut?, herror]
      rfl
    refine ⟨herror, ?_⟩
    unfold use
    rw [hnone]
    simp [act?]
  case calling =>
    intro i method args hi
    exact ⟨Endpoint.invoke_of_own hi method args, Host.step_invoke_of_own hi method args⟩
  case telling =>
    intro i method args hi
    have hstep := Host.step_notify_of_own (h := x.chronicle.host) hi method args
    exact ⟨Endpoint.notify_of_own hi method args, congrArg (fun s => s.1.endpoint) hstep,
      congrArg Prod.snd hstep⟩
  case removing =>
    intro i
    exact ⟨⟨_, rfl, fun id => x.endpoint.registry.get?_unregister i.id id⟩, rfl, rfl⟩
  case hosted =>
    intro u id hchanges
    obtain ⟨a, g, ha, hbinds⟩ := exists_rebinds hchanges
    obtain rfl := exists_act_of_rebinds ha hbinds
    rcases Host.rebinds?_eq_some hbinds with ⟨i, g', rfl, hi, hid⟩ | ⟨i, rfl, hid⟩ | ⟨g', rfl⟩ | rfl
    · exact Or.inl ⟨i, g', rfl, hi, hid⟩
    · exact Or.inr (Or.inl ⟨i, rfl, hid⟩)
    · exact Or.inr (Or.inr (Or.inl ⟨g', rfl⟩))
    · exact Or.inr (Or.inr (Or.inr rfl))

/-- An identifier of the other side removes a service of the own side that has the same number. -/
theorem unset_ignores_side :
    let own : Identifier := ⟨⟨0⟩, .main, "commands"⟩
    let other : Identifier := ⟨⟨0⟩, .ext, "commands"⟩
    let x := (ofConfig { side := .main } : Clientele Service).run
      [.act (.op (.set own (.kit "kit")))]
    other.side ≠ x.endpoint.side ∧
      (x.endpoint.registry.get? own.id).map Service.label = some "kit" ∧
        ((x.endpoint.unset other).2).map Service.label = some "kit" ∧
          (x.use (.act (.op (.unset other)))).endpoint.registry.get? own.id = none :=
  ⟨by decide, rfl, rfl, rfl⟩

end Clientele

end PeerRpc
