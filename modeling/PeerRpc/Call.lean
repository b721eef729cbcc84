import PeerRpc.Endpoint

/-!
# PeerRpc.Call -- a call and its caller

A `Call` is the caller's end of a request. The endpoint delivers the result of a call into it; the
caller polls it, cancels it, or lets go of it. Time is counted in milliseconds.

The deadline of a call counts from when the call was made, however late it is polled. A poll that
finds a result returns it, even after the deadline; only a poll at or after the deadline that finds
none ends the call with a timeout, and then the other side is told to stop.

Time has no end here. A limit is taken to be small enough for a clock to hold the deadline; with a
limit for which it cannot, such as the longest duration there is, a poll that finds no result panics.
-/

namespace PeerRpc

/-- The caller's end of a request. -/
structure Call where
  /-- The id of the request; a call that failed before it got one has none. -/
  id : Option RequestId
  limit : Option Duration := none
  /-- When the call was made. -/
  started : Nat := 0
  /-- The result, once there is one. -/
  delivered : Option CallResult := none
  /-- Whether a poll has returned the result. -/
  settled : Bool := false

namespace Call

variable {η : Type}

/-- A call that failed before it got an id. -/
def failed (err : CallError) : Call := { id := none, delivered := some (.error err) }

/-- When the call has waited long enough. The sum is taken not to overflow the clock. -/
def deadline? (c : Call) : Option Nat := c.limit.map fun d => c.started + d.ticks

/-- Delivers a result. Only the first one counts. -/
def deliver (c : Call) (r : CallResult) : Call :=
  { c with delivered := c.delivered <|> some r }

/-- Takes note of an event at the caller's endpoint. -/
def hear (c : Call) : Event η → Call
  | .settled id r => if c.id = some id then c.deliver r else c
  | _ => c

/-- Ends the call for a reason of the caller's. Says whether the call was still waiting. -/
def cancelWith (c : Call) (reason : CallError) (e : Endpoint η) : Bool × Endpoint.Step η :=
  match c.id with
  | none => (false, (e, []))
  | some id => e.cancelRequest id reason

/-- Cancels the call. -/
def cancel (c : Call) (e : Endpoint η) : Bool × Endpoint.Step η := c.cancelWith .cancelled e

/-- Lets go of the call: one that is not settled is cancelled. -/
def drop (c : Call) (e : Endpoint η) : Endpoint.Step η :=
  if c.settled then (e, []) else (c.cancel e).2

/-- Looks for the result of the call at the time `now`. There is no poll that panics: the limit is
taken to be small enough for the deadline to be a time. -/
def poll (c : Call) (now : Nat) (e : Endpoint η) : Option CallResult × Call × Endpoint.Step η :=
  match c.delivered with
  | some r => (some r, { c with settled := true }, (e, []))
  | none =>
    match c.limit, c.deadline? with
    | some d, some t =>
      if t ≤ now then
        (some (.error (.timeout d)), { c with settled := true }, (c.cancelWith (.timeout d) e).2)
      else (none, c, (e, []))
    | _, _ => (none, c, (e, []))

/-- The diagnostic text of a call. -/
def debug (c : Call) : String :=
  Quoted.record "PendingCall" [
    ("id", Quoted.option (c.id.map RequestId.debug)),
    ("timeout", Quoted.option (c.limit.map Duration.text)),
    ("settled", toString c.settled)] true

/-- The diagnostic text of a handle that cancels the call. -/
def handleDebug (c : Call) : String :=
  Quoted.record "CancelHandle" [("id", Quoted.option (c.id.map RequestId.debug))] false

end Call

end PeerRpc
