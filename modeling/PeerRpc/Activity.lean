import PeerRpc.Arguments
import PeerRpc.Endpoint

/-!
# PeerRpc.Activity -- what a handler does

The run of a handler is an `Activity`: a tree whose nodes are the things a handler asks of its
surroundings, in the order in which it asks for them, and whose leaves are the ways it can end. A
node that is answered goes on with a subtree, so an activity always ends after finitely many
answers; whether it gets them is up to the surroundings.

A `Behaviour` makes an activity for each call. `Behaviour.ofArgument` and its like read arguments
first and let the call fail with the error of the first one that does not fit.
-/

namespace PeerRpc

/-- What a handler does. -/
inductive Activity where
  /-- Ends with a result. -/
  | finish (result : Except HandlerError Value)
  /-- Breaks down with a message. -/
  | panic (message : String)
  /-- Writes a line to the log. -/
  | log (line : String) (next : Activity)
  /-- Asks whether the run has been told to stop. -/
  | askStopped (next : Bool → Activity)
  /-- Waits until the run is told to stop. -/
  | untilStopped (next : Activity)
  /-- Waits for ever. -/
  | forever
  /-- Waits for a time in milliseconds. -/
  | sleep (ms : Nat) (next : Activity)
  /-- Waits for a permit of the gate with this name. -/
  | gate (name : String) (next : Activity)
  /-- Takes a handle of its own side for the rest of the run, and learns whether there was one. -/
  | takeHandle (next : Bool → Activity)
  /-- Calls a service from its own side and waits for what the call comes to. -/
  | call (target : Identifier) (method : String) (args : List Value)
      (next : CallResult → Activity)

/-- What a handler is told about a call. -/
structure CallContext where
  /-- The request that is answered; a notification is not. -/
  request : Option RequestId
  proxy : ProxyId
  method : String

/-- Whether the call is a notification. -/
def CallContext.isNotification (c : CallContext) : Bool := c.request.isNone

/-- What a method does with a call and its arguments. -/
abbrev Behaviour := CallContext → List Value → Activity

namespace Activity

/-- Ends with a value. -/
def reply (v : Value) : Activity := finish (.ok v)

/-- Ends with data in its plain form. -/
def respond (d : Datum) : Activity := finish (PeerRpc.respond d)

/-- Ends with a failure. -/
def fail (e : HandlerError) : Activity := finish (.error e)

/-- Goes on with an argument, or fails because the argument does not fit. -/
def withArgument (s : Shape) (args : List Value) (index : Nat) (next : s.Carrier → Activity) :
    Activity :=
  match argument s args index with
  | .ok a => next a
  | .error e => fail e

/-- Waits until the run is told to stop and ends with a value. -/
def replyStopped (v : Value) : Activity := untilStopped (reply v)

end Activity

/-- Answers with the first argument, which has this shape, after a conversion. -/
def Behaviour.ofArgument (s : Shape) (f : s.Carrier → Activity) : Behaviour :=
  fun _ args => .withArgument s args 0 f

end PeerRpc
