import PeerRpc.Arguments
import PeerRpc.Call

/-!
# PeerRpc.Opening -- the ways to start a call or a notification

A user calls or notifies an identified service at the endpoint itself, or the service that a proxy
stands for. Through a proxy the arguments may be data of any type, which is turned into plain data
first. Whoever starts a call is left with a `Call`, whatever comes of it; whoever sends a
notification is told whether it was queued.
-/

namespace PeerRpc

/-- The start of a call or of a notification. -/
inductive Opening where
  /-- A call of an identified service. -/
  | invoke (i : Identifier) (method : String) (args : List Value)
  /-- A call of the service that a proxy stands for. -/
  | request (proxy : ProxyId) (method : String) (args : List Value)
  /-- A call of the service that a proxy stands for, with data of any type. -/
  | call (proxy : ProxyId) (method : String) (args : List Datum)
  /-- A notification of an identified service. -/
  | notify (i : Identifier) (method : String) (args : List Value)
  /-- A notification of the service that a proxy stands for, with data of any type. -/
  | tell (proxy : ProxyId) (method : String) (args : List Datum)

/-- What a user is left with. -/
inductive Receipt where
  | call (c : Call)
  | notice (r : Except CallError Unit)

/-- The error that a user is told of, if there is one already. -/
def Receipt.error? : Receipt → Option CallError
  | call c =>
    match c.delivered with
    | some (.error err) => some err
    | _ => none
  | notice (.error err) => some err
  | notice (.ok ()) => none

namespace Opening

variable {η : Type}

/-- Whether a call is started. -/
def isCall : Opening → Bool
  | invoke .. => true
  | request .. => true
  | call .. => true
  | notify .. => false
  | tell .. => false

/-- The method that is meant. -/
def method : Opening → String
  | invoke _ method _ => method
  | request _ method _ => method
  | call _ method _ => method
  | notify _ method _ => method
  | tell _ method _ => method

/-- The caller's end of a call that is made at the time `now`. -/
def called (now : Nat) (e : Endpoint η) :
    Except CallError (RequestId × Endpoint.Step η) → Endpoint.Step η × Receipt
  | .error err => ((e, []), .call (.failed err))
  | .ok (id, s) =>
    let c : Call := { id := some id, limit := e.config.requestTimeout, started := now }
    (s, .call (s.2.foldl Call.hear c))

/-- What the sender of a notification is told. -/
def noticed (e : Endpoint η) : Except CallError (Endpoint.Step η) → Endpoint.Step η × Receipt
  | .error err => ((e, []), .notice (.error err))
  | .ok s => (s, .notice (.ok ()))

/-- Starts a call or a notification at the time `now`. -/
def place (now : Nat) (e : Endpoint η) : Opening → Endpoint.Step η × Receipt
  | invoke i method args => called now e (e.invoke i method args)
  | request proxy method args => called now e (.ok (e.request proxy method args))
  | call proxy method args =>
    called now e ((intoArguments args).map fun vs => e.request proxy method vs)
  | notify i method args => noticed e (e.notify i method args)
  | tell proxy method args => noticed e (do e.notifyProxy proxy method (← intoArguments args))

end Opening

end PeerRpc
