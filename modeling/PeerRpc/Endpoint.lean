import PeerRpc.Codec
import PeerRpc.Config
import PeerRpc.Registry

/-!
# PeerRpc.Endpoint -- one side of the protocol

An endpoint makes calls to the services of the other side and runs handlers for calls from there.
Its state holds the calls that wait for their answers, the handlers that run, the registry of
services, and the messages that wait to be sent. It starts open and is closed once, by whoever
notices first that the channel has gone.

Every operation is a function from an endpoint to an endpoint and a list of events: what happened,
in order, so that a scheduler knows who may go on and a proof knows the history. The endpoint
decides nothing about time, channels or schedules: when a frame arrives, a handler finishes, a call
is cancelled or a message is refused is up to its surroundings.

A call is settled by whoever removes it from `pending`; there is no other way to settle one.
-/

namespace PeerRpc

/-- What a service is made of: its methods say whether they are aborted when a caller cancels. -/
class Handler (η : Type) where
  isCancellable : η → String → Bool

/-- What a call came to. -/
abbrev CallResult := Except CallError Value

/-- How a run of a handler ends. -/
inductive Outcome where
  | value (v : Value)
  | failed (e : HandlerError)
  | panicked (message : String)
  /-- The caller cancelled and the method does not run on. -/
  | aborted

/-- What the caller is told of an outcome. -/
def Outcome.toReply : Outcome → Except RemoteError Value
  | value v => .ok v
  | failed e => .error e.toRemote
  | panicked message => .error (.panicked message)
  | aborted => .error .requestCancelled

/-- A run of a handler. -/
structure Run (η : Type) where
  /-- The number of the run at this endpoint. -/
  serial : Nat
  /-- The request that is answered; a notification is not. -/
  request : Option RequestId
  proxy : ProxyId
  method : String
  args : List Value
  handler : η
  /-- Whether the run is aborted when its caller cancels. -/
  abortable : Bool
  /-- Whether the run has been told that its caller cancelled or the endpoint closed. -/
  fired : Bool := false

/-- A message that waits to be sent. -/
structure Outbound where
  message : Message
  /-- Whether the message stands in for a refused reply; its own refusal is not answered. -/
  lastResort : Bool := false

/-- The octets of a message that waits to be sent. -/
def Outbound.bytes (o : Outbound) : Bytes := Cbor.encodeMessage o.message

/-- What happens at an endpoint. -/
inductive Event (η : Type) where
  /-- The call is settled. -/
  | settled (id : RequestId) (result : CallResult)
  /-- The message waits to be sent. -/
  | queued (o : Outbound)
  /-- The run begins. -/
  | started (r : Run η)
  /-- The run is told to stop. -/
  | fired (serial : Nat)
  /-- The endpoint is closed. -/
  | closed
  /-- Reader and writer are told to stop. -/
  | halted

/-- One side of the protocol. -/
structure Endpoint (η : Type) where
  config : Config
  /-- The id of the next request. -/
  nextId : UInt64 := 1
  isOpen : Bool := true
  /-- The calls that wait for their answers, with the services they went to. -/
  pending : List (RequestId × ProxyId) := []
  /-- The runs that have not ended, the first to begin first. -/
  runs : List (Run η) := []
  /-- The number of the next run. -/
  nextRun : Nat := 0
  registry : Registry η := {}
  /-- The messages that wait to be sent, the first to go first. -/
  outbound : List Outbound := []

namespace Endpoint

variable {η : Type}

/-- What an operation makes of an endpoint. -/
abbrev Step (η : Type) := Endpoint η × List (Event η)

/-- Goes on with another operation. -/
def andThen (s : Step η) (f : Endpoint η → Step η) : Step η :=
  let t := f s.1
  (t.1, s.2 ++ t.2)

/-- An endpoint that has just been opened. -/
def ofConfig (c : Config) : Endpoint η := { config := c }

/-- The side of the endpoint. -/
def side (e : Endpoint η) : Side := e.config.side

/-- The number of calls that wait for their answers. -/
def pendingCount (e : Endpoint η) : Nat := e.pending.length

/-- The runs that answer requests. -/
def inProgress (e : Endpoint η) : List (Run η) := e.runs.filter fun r => r.request.isSome

/-- The number of requests whose handlers run. -/
def inProgressCount (e : Endpoint η) : Nat := e.inProgress.length

/-- The run with this number. -/
def run? (e : Endpoint η) (serial : Nat) : Option (Run η) :=
  e.runs.find? fun r => r.serial = serial

/-- The run that answers a request. -/
def runFor? (e : Endpoint η) (id : RequestId) : Option (Run η) :=
  e.runs.find? fun r => r.request = some id

/-! ## Messages that go out -/

/-- Lets a message wait to be sent. A closed endpoint sends nothing. -/
def enqueue (e : Endpoint η) (o : Outbound) : Step η :=
  if e.isOpen then ({ e with outbound := e.outbound ++ [o] }, [.queued o]) else (e, [])

/-- Takes the next message to be sent. -/
def dequeue (e : Endpoint η) : Option (Outbound × Endpoint η) :=
  match e.isOpen, e.outbound with
  | true, o :: rest => some (o, { e with outbound := rest })
  | _, _ => none

/-! ## Calls -/

/-- Settles a call, if it waits, with a result that may depend on the service it went to. -/
def settle (e : Endpoint η) (id : RequestId) (result : ProxyId → CallResult) : Step η :=
  match e.pending.find? fun p => p.1 = id with
  | none => (e, [])
  | some (_, proxy) =>
    ({ e with pending := e.pending.filter fun p => p.1 ≠ id }, [.settled id (result proxy)])

/-- Calls a method of the service `proxy` under a new id. If the call cannot be made it is settled
at once. -/
def request (e : Endpoint η) (proxy : ProxyId) (method : String) (args : List Value) :
    RequestId × Step η :=
  let id : RequestId := ⟨e.nextId⟩
  let e := { e with nextId := e.nextId + 1 }
  let m := Message.request id proxy method args
  let refuse (err : CallError) : RequestId × Step η := (id, (e, [.settled id (.error err)]))
  if !e.isOpen then refuse .disconnected
  else if e.config.maxInFlight ≤ e.pendingCount then
    refuse (.tooManyInFlight e.pendingCount e.config.maxInFlight)
  else
    match Codec.encodeMessage m with
    | .error err => refuse (.codec err)
    | .ok _ => (id, { e with pending := e.pending ++ [(id, proxy)] }.enqueue { message := m })

/-- Sends a notification to the service `proxy`. -/
def notifyProxy (e : Endpoint η) (proxy : ProxyId) (method : String) (args : List Value) :
    Except CallError (Step η) :=
  let m := Message.notification proxy method args
  if !e.isOpen then .error .disconnected
  else
    match Codec.encodeMessage m with
    | .error err => .error (.codec err)
    | .ok _ => .ok (e.enqueue { message := m })

/-- Settles a call with a reason of the caller's and tells the other side to stop working on it.
Says whether the call was still waiting. -/
def cancelRequest (e : Endpoint η) (id : RequestId) (reason : CallError) : Bool × Step η :=
  if e.pending.any fun p => p.1 = id then
    (true, andThen (e.settle id fun _ => .error reason) fun e =>
      e.enqueue { message := .cancel id })
  else (false, (e, []))

/-! ## Handlers -/

/-- The message that answers a request. An answer that the other side could not read is replaced by
an error that says so. -/
def answer (id : RequestId) (reply : Except RemoteError Value) : Message :=
  let m := match reply with
    | .ok v => Message.reply id v
    | .error err => Message.replyErr id err
  match Codec.encodeMessage m with
  | .ok _ => m
  | .error err =>
    .replyErr id ⟨.handlerFailed, "Failed to encode reply: " ++ (CallError.codec err).text, none⟩

/-- Answers a request. -/
def sendReply (e : Endpoint η) (id : RequestId) (reply : Except RemoteError Value) : Step η :=
  e.enqueue { message := answer id reply }

/-- Begins a run. -/
def start [Handler η] (e : Endpoint η) (request : Option RequestId) (proxy : ProxyId)
    (method : String) (args : List Value) (h : η) : Step η :=
  let r : Run η :=
    { serial := e.nextRun, request := request, proxy := proxy, method := method, args := args,
      handler := h, abortable := request.isSome && Handler.isCancellable h method }
  ({ e with runs := e.runs ++ [r], nextRun := e.nextRun + 1 }, [.started r])

/-- Tells a run to stop. -/
def fire (e : Endpoint η) (serial : Nat) : Step η :=
  if e.runs.any fun r => r.serial = serial && !r.fired then
    ({ e with runs := e.runs.map fun r =>
        if r.serial = serial then { r with fired := true } else r }, [.fired serial])
  else (e, [])

/-- Ends a run and answers its request. -/
def finish (e : Endpoint η) (serial : Nat) (o : Outcome) : Step η :=
  match e.run? serial with
  | none => (e, [])
  | some r =>
    let e := { e with runs := e.runs.filter fun r => r.serial ≠ serial }
    match r.request with
    | none => (e, [])
    | some id => e.sendReply id o.toReply

/-! ## Messages that come in -/

/-- Acts on a message. A request whose id is still being worked on is ignored, and so are an answer
to a call that does not wait and a cancel of a request that is not being worked on. -/
def dispatch [Handler η] (e : Endpoint η) : Message → Step η
  | .request id proxy method args =>
    if (e.runFor? id).isSome then (e, [])
    else
      match e.registry.get? proxy with
      | none => e.sendReply id (.error (.noSuchProxy proxy))
      | some h => e.start (some id) proxy method args h
  | .notification proxy method args =>
    match e.registry.get? proxy with
    | none => (e, [])
    | some h => e.start none proxy method args h
  | .reply id v => e.settle id fun _ => .ok v
  | .replyErr id err => e.settle id fun proxy => .error (.ofRemote proxy err)
  | .cancel id =>
    match e.runFor? id with
    | none => (e, [])
    | some r => e.fire r.serial

/-- Acts on a frame. One that is no message is skipped, and a closed endpoint acts on none. -/
def receive [Handler η] (e : Endpoint η) (frame : Bytes) : Step η :=
  if e.isOpen then
    match Codec.decodeMessage frame with
    | .error _ => (e, [])
    | .ok m => e.dispatch m
  else (e, [])

/-! ## The end -/

/-- Closes the endpoint, unless it is closed: settles every call, tells every run to stop, the last
to begin first, and then reader and writer. -/
def close (e : Endpoint η) : Step η :=
  if e.isOpen then
    let toStop := (e.runs.filter fun r => !r.fired).reverse
    ({ e with
        isOpen := false, pending := [], runs := e.runs.map fun r => { r with fired := true } },
      [.closed] ++ e.pending.map (fun p => .settled p.1 (.error .disconnected)) ++
        toStop.map (fun r => .fired r.serial) ++ [.halted])
  else (e, [])

/-- Acts on a message that the channel refused without closing. -/
def undeliverable (e : Endpoint η) (o : Outbound) (err : TransportError) : Step η :=
  match o.message with
  | .request id .. => e.settle id fun _ => .error (.transport err)
  | .reply id _ => if o.lastResort then (e, []) else inform id
  | .replyErr id _ => if o.lastResort then (e, []) else inform id
  | _ => (e, [])
where
  /-- Tells the caller that its answer could not be delivered. -/
  inform (id : RequestId) : Step η :=
    e.enqueue {
      message := .replyErr id
        ⟨.handlerFailed, "Reply could not be delivered: " ++ err.text, none⟩
      lastResort := true }

/-! ## Services and identifiers -/

/-- The error for an identifier of the wrong side. -/
def wrongSide (e : Endpoint η) (i : Identifier) (usage : Usage) : CallError :=
  .wrongSide i.text usage e.side

/-- Hosts a handler as a service of this side, and hands back the one it replaces. -/
def set (e : Endpoint η) (i : Identifier) (h : η) : Except CallError (Endpoint η × Option η) :=
  if i.side ≠ e.side then .error (e.wrongSide i .hosted)
  else
    let (registry, old) := e.registry.register i.id h
    .ok ({ e with registry := registry }, old)

/-- Hosts a service no longer, and hands back its handler. The side of the identifier does not
matter. -/
def unset (e : Endpoint η) (i : Identifier) : Endpoint η × Option η :=
  let (registry, old) := e.registry.unregister i.id
  ({ e with registry := registry }, old)

/-- The id under which a service of the other side is called. -/
def proxyFor (e : Endpoint η) (i : Identifier) : Except CallError ProxyId :=
  if i.side = e.side then .error (e.wrongSide i .proxied) else .ok i.id

/-- Calls a method of a service of the other side. A call of a service of this side fails without an
id. -/
def invoke (e : Endpoint η) (i : Identifier) (method : String) (args : List Value) :
    Except CallError (RequestId × Step η) :=
  (e.proxyFor i).map fun proxy => e.request proxy method args

/-- Sends a notification to a service of the other side. -/
def notify (e : Endpoint η) (i : Identifier) (method : String) (args : List Value) :
    Except CallError (Step η) := do
  e.notifyProxy (← e.proxyFor i) method args

/-- The diagnostic text of an endpoint over a channel. -/
def debug (e : Endpoint η) (channel : String) : String :=
  Quoted.record "RpcProtocol" [
    ("side", e.side.title),
    ("state", if e.isOpen then "Open" else "Closed"),
    ("channel", channel),
    ("pending", toString e.pendingCount),
    ("in_progress", toString e.inProgressCount),
    ("registry", e.registry.debug)] false

end Endpoint

end PeerRpc
