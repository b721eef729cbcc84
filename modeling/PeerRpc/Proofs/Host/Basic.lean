import Mathlib.Data.List.Induction
import PeerRpc.Call

/-!
# PeerRpc.Proofs.Host.Basic -- everything that can happen at one endpoint

A `Host` is an endpoint with its surroundings: the calls that were made at it, the message that its
writer has handed to the channel, and the handlers that have ended although nobody has looked at
their runs yet. `Host.step` says what one `Act` does. Acts come in any order, from any number of
users, callers and handlers, and from a channel of which nothing is assumed: it hands over any
octets at any time and answers to a message as it likes. An act that makes no sense where it is
taken, such as a poll of a call that was never made, changes nothing. An act is not interrupted: one
operation, or one poll of a task, is done before the next begins, and a second worker inside one of
them is left out. (`Crowd` takes the start of a call apart.)

A `Chronicle` is a host together with its past. Statements about every run of an endpoint are
statements about `Chronicle.run acts (Chronicle.ofConfig c)` for every list of acts.

Ids are 64 bits wide and are never handed out twice: a host that has used up all of them makes no
further call.
-/

namespace PeerRpc

/-! ## Acts -/

/-- What users, callers and handlers do at an endpoint. Calls are named by the place at which they
were made, runs of handlers by their numbers. -/
inductive Op (η : Type) where
  /-- Calls a method of an identified service. -/
  | invoke (i : Identifier) (method : String) (args : List Value)
  /-- Calls a method of the service that a proxy stands for. -/
  | request (proxy : ProxyId) (method : String) (args : List Value)
  /-- Sends a notification to an identified service. -/
  | notify (i : Identifier) (method : String) (args : List Value)
  /-- Sends a notification to the service that a proxy stands for. -/
  | notifyProxy (proxy : ProxyId) (method : String) (args : List Value)
  /-- Cancels a call, directly or through a handle. -/
  | cancel (k : Nat)
  /-- Lets go of a call. -/
  | drop (k : Nat)
  /-- Looks for the result of a call. -/
  | poll (k : Nat)
  /-- Lets milliseconds pass. -/
  | wait (ms : Nat)
  | set (i : Identifier) (h : η)
  | unset (i : Identifier)
  /-- Registers a handler directly in the registry. -/
  | register (proxy : ProxyId) (h : η)
  /-- Removes a handler directly from the registry. -/
  | unregister (proxy : ProxyId)
  /-- The handler of a run ends. -/
  | conclude (serial : Nat) (o : Outcome)
  /-- The handler of a run fires the signal of its own call. -/
  | stop (serial : Nat)
  /-- The task of a run takes its turn. -/
  | reap (serial : Nat)
  | close

/-- What happens at an endpoint with a channel. -/
inductive Act (η : Type) where
  | op (o : Op η)
  /-- The reader receives a frame. -/
  | receive (frame : Bytes)
  /-- The writer takes the next message and hands it to the channel. -/
  | take
  /-- The channel answers to the message that the writer has handed to it. -/
  | sent (r : Except TransportError Unit)

/-- Whether an outcome comes from the handler itself. -/
def Outcome.isOwn : Outcome → Bool
  | aborted => false
  | _ => true

/-! ## Hosts -/

/-- A call with what was asked. -/
structure Asked where
  proxy : ProxyId
  method : String
  args : List Value
  call : Call

/-- The call after some events at its endpoint. -/
def Asked.hear {η : Type} (events : List (Event η)) (q : Asked) : Asked :=
  { q with call := events.foldl Call.hear q.call }

/-- An endpoint with its surroundings. -/
structure Host (η : Type) where
  endpoint : Endpoint η
  /-- Every call that was made, the first to be made first. -/
  calls : List Asked := []
  now : Nat := 0
  /-- The message that the channel has been given and has not answered to. -/
  sending : Option Outbound := none
  /-- The handlers that have ended, with their runs and outcomes. -/
  concluded : List (Nat × Outcome) := []

namespace Host

variable {η : Type}

/-- A host whose endpoint has just been opened. -/
def ofConfig (c : Config) : Host η := { endpoint := .ofConfig c }

/-- The outcome of the handler of a run, once it has ended. -/
def outcome? (h : Host η) (serial : Nat) : Option Outcome :=
  (h.concluded.find? fun x => x.1 = serial).map Prod.snd

/-- The host after a step of its endpoint. Every call hears of its events. -/
def follow (h : Host η) (s : Endpoint.Step η) : Host η × List (Event η) :=
  ({ h with endpoint := s.1, calls := h.calls.map (Asked.hear s.2) }, s.2)

/-- The host after a step of its endpoint that makes a call. -/
def begin (h : Host η) (proxy : ProxyId) (method : String) (args : List Value)
    (r : RequestId × Endpoint.Step η) : Host η × List (Event η) :=
  let call : Call := { id := some r.1, limit := h.endpoint.config.requestTimeout, started := h.now }
  ({ h with calls := h.calls ++ [⟨proxy, method, args, call⟩] } : Host η).follow r.2

/-- The host after a step that says whether it is possible. -/
def attempt (h : Host η) : Except CallError (Endpoint.Step η) → Host η × List (Event η)
  | .error _ => (h, [])
  | .ok s => h.follow s

/-- The host after a step of the endpoint and of one of its calls. -/
def onCall (h : Host η) (k : Nat) (f : Call → Call × Endpoint.Step η) : Host η × List (Event η) :=
  match h.calls[k]? with
  | none => (h, [])
  | some q =>
    let (call, s) := f q.call
    ({ h with calls := h.calls.set k { q with call := call } } : Host η).follow s

/-- How a run ends whose task takes its turn now: as its handler has, or aborted if it has been told
to stop and does not run on. The outcome of a handler that has ended comes first. -/
def ending? (h : Host η) (r : Run η) : Option Outcome :=
  match h.outcome? r.serial with
  | some o => some o
  | none => if r.abortable && r.fired then some .aborted else none

/-- What is done at an endpoint without its channel. -/
def operate (h : Host η) : Op η → Host η × List (Event η)
  | .invoke i method args =>
    if h.endpoint.nextId = 0 then (h, [])
    else match h.endpoint.invoke i method args with
      | .error err => ({ h with calls := h.calls ++ [⟨i.id, method, args, .failed err⟩] }, [])
      | .ok r => h.begin i.id method args r
  | .request proxy method args =>
    if h.endpoint.nextId = 0 then (h, [])
    else h.begin proxy method args (h.endpoint.request proxy method args)
  | .notify i method args => h.attempt (h.endpoint.notify i method args)
  | .notifyProxy proxy method args => h.attempt (h.endpoint.notifyProxy proxy method args)
  | .cancel k => h.onCall k fun c => (c, (c.cancel h.endpoint).2)
  | .drop k => h.onCall k fun c => (c, c.drop h.endpoint)
  | .poll k => h.onCall k fun c => (c.poll h.now h.endpoint).2
  | .wait ms => ({ h with now := h.now + ms }, [])
  | .set i handler =>
    match h.endpoint.set i handler with
    | .error _ => (h, [])
    | .ok (e, _) => ({ h with endpoint := e }, [])
  | .unset i => ({ h with endpoint := (h.endpoint.unset i).1 }, [])
  | .register proxy handler =>
    ({ h with endpoint :=
        { h.endpoint with registry := (h.endpoint.registry.register proxy handler).1 } }, [])
  | .unregister proxy =>
    ({ h with endpoint :=
        { h.endpoint with registry := (h.endpoint.registry.unregister proxy).1 } }, [])
  | .conclude serial o =>
    if (h.endpoint.run? serial).isSome && (h.outcome? serial).isNone && o.isOwn then
      ({ h with concluded := h.concluded ++ [(serial, o)] }, [])
    else (h, [])
  | .stop serial => h.follow (h.endpoint.fire serial)
  | .reap serial =>
    match (h.endpoint.run? serial).bind h.ending? with
    | none => (h, [])
    | some o => h.follow (h.endpoint.finish serial o)
  | .close => h.follow h.endpoint.close

/-- A call through an identifier is not made while there is no id for it, fails at once if it is for
the own side, and begins like any other otherwise. -/
theorem operate_invoke (h : Host η) (i : Identifier) (method : String) (args : List Value) :
    h.operate (.invoke i method args) =
      if h.endpoint.nextId = 0 then (h, [])
      else if i.side = h.endpoint.side then
        ({ h with calls := h.calls ++
            [⟨i.id, method, args, .failed (h.endpoint.wrongSide i .proxied)⟩] }, [])
      else h.begin i.id method args (h.endpoint.request i.id method args) := by
  simp only [operate, Endpoint.invoke, Endpoint.proxyFor]
  by_cases hside : i.side = h.endpoint.side
  · rw [if_pos hside, if_pos hside]
    rfl
  · rw [if_neg hside, if_neg hside]
    rfl

/-- Only a service of the own side is hosted. -/
theorem operate_set (h : Host η) (i : Identifier) (g : η) :
    h.operate (.set i g) =
      if i.side = h.endpoint.side then
        ({ h with endpoint :=
            { h.endpoint with registry := (h.endpoint.registry.register i.id g).1 } }, [])
      else (h, []) := by
  simp only [operate, Endpoint.set]
  by_cases hside : i.side = h.endpoint.side
  · rw [if_neg (not_not.mpr hside), if_pos hside]
  · rw [if_pos hside, if_neg hside]

variable [Handler η]

/-- What one act does: the host after it, and the events in their order. A channel that answers with
an error after which it cannot be used closes the endpoint; any other error gives the message back
to the endpoint. -/
def step (h : Host η) : Act η → Host η × List (Event η)
  | .op o => h.operate o
  | .receive frame => h.follow (h.endpoint.receive frame)
  | .take =>
    match h.sending, h.endpoint.dequeue with
    | none, some (o, e) => ({ h with endpoint := e, sending := some o }, [])
    | _, _ => (h, [])
  | .sent r =>
    match h.sending, r with
    | none, _ => (h, [])
    | some _, .ok () => ({ h with sending := none }, [])
    | some o, .error err =>
      ({ h with sending := none } : Host η).follow
        (if err.isTerminal then h.endpoint.close else h.endpoint.undeliverable o err)

/-- The channel refuses the message that the writer has handed to it, or has gone. -/
theorem step_sent_error {h : Host η} {o : Outbound} (hs : h.sending = some o)
    (err : TransportError) :
    h.step (.sent (.error err)) = ({ h with sending := none } : Host η).follow
      (if err.isTerminal then h.endpoint.close else h.endpoint.undeliverable o err) := by
  simp only [step, hs]

end Host

/-! ## Chronicles -/

/-- An act where it is taken. -/
structure Moment (η : Type) where
  host : Host η
  act : Act η

namespace Moment

variable {η : Type} [Handler η]

/-- The host after the act. -/
def after (m : Moment η) : Host η := (m.host.step m.act).1

/-- The events of the act. -/
def events (m : Moment η) : List (Event η) := (m.host.step m.act).2

end Moment

/-- A host with its past, the first moment first. -/
structure Chronicle (η : Type) where
  host : Host η
  past : List (Moment η) := []

namespace Chronicle

variable {η : Type}

/-- The chronicle of an endpoint that has just been opened. -/
def ofConfig (c : Config) : Chronicle η := { host := .ofConfig c }

variable [Handler η]

/-- One more act. -/
def act (a : Act η) (c : Chronicle η) : Chronicle η :=
  { host := (c.host.step a).1, past := c.past ++ [⟨c.host, a⟩] }

/-- Some more acts. -/
def run (acts : List (Act η)) (c : Chronicle η) : Chronicle η := acts.foldl (fun c a => c.act a) c

/-- Everything that has happened, in order. -/
def events (c : Chronicle η) : List (Event η) := c.past.flatMap Moment.events

@[simp] theorem run_nil (c : Chronicle η) : c.run [] = c := rfl

theorem run_append (xs ys : List (Act η)) (c : Chronicle η) :
    c.run (xs ++ ys) = (c.run xs).run ys := by
  simp only [run, List.foldl_append]

theorem run_concat (xs : List (Act η)) (a : Act η) (c : Chronicle η) :
    c.run (xs ++ [a]) = (c.run xs).act a := by
  rw [run_append]
  rfl

@[simp] theorem host_act (a : Act η) (c : Chronicle η) :
    (c.act a).host = (c.host.step a).1 := rfl

@[simp] theorem past_act (a : Act η) (c : Chronicle η) :
    (c.act a).past = c.past ++ [⟨c.host, a⟩] := rfl

@[simp] theorem events_act (a : Act η) (c : Chronicle η) :
    (c.act a).events = c.events ++ (c.host.step a).2 := by
  simp [events, Moment.events]

/-- **What every run keeps.** A property that holds of an endpoint that has just been opened, and
that every act keeps, holds after every list of acts. -/
theorem run_induction {P : Chronicle η → Prop} {c : Config} (h₀ : P (ofConfig c))
    (hstep : ∀ x a, P x → P (x.act a)) (acts : List (Act η)) :
    P ((ofConfig c).run acts) := by
  induction acts using List.reverseRecOn with
  | nil => exact h₀
  | append_singleton acts a ih =>
      rw [run_concat]
      exact hstep _ _ ih

/-- A property of hosts that every act keeps holds at every moment of a run. -/
theorem invariant {P : Host η → Prop} {c : Config} (h₀ : P (.ofConfig c))
    (hstep : ∀ h a, P h → P (h.step a).1) (acts : List (Act η)) :
    P ((ofConfig c).run acts).host ∧ ∀ m ∈ ((ofConfig c).run acts).past, P m.host := by
  refine run_induction (P := fun x => P x.host ∧ ∀ m ∈ x.past, P m.host) 
    ⟨h₀, fun _ hm => absurd hm List.not_mem_nil⟩ ?_ acts
  rintro x a ⟨hx, hpast⟩
  refine ⟨hstep x.host a hx, fun m hm => ?_⟩
  rcases List.mem_append.mp hm with hm | hm
  · exact hpast m hm
  · rw [List.mem_singleton.mp hm]
    exact hx

end Chronicle

end PeerRpc
