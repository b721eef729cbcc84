import PeerRpc.Bytes
import PeerRpc.Error
import PeerRpc.Sync

/-!
# PeerRpc.Channel.Scripted -- a channel that follows a script

A scripted channel has no other end. It delivers what its script puts in, fails when its script says
so, and records what is sent. It shows how an endpoint meets a channel that
refuses messages or breaks.
-/

namespace PeerRpc

/-- A channel that follows a script. -/
structure Scripted where
  /-- What is to be received, in order. -/
  inbox : List (Except TransportError Bytes) := []
  /-- Whether nothing more will come. -/
  ended : Bool := false
  /-- Who waits to receive. -/
  receivers : List Ticket := []
  /-- How the next sends fail. -/
  sendErrors : List TransportError := []
  /-- How the next close fails. -/
  closeError : Option TransportError := none
  /-- What has been sent, the last first. -/
  sent : List Bytes := []
  deriving Inhabited

namespace Scripted

/-- Puts something in to be received. -/
def put (c : Scripted) (item : Except TransportError Bytes) : Scripted × List Ticket :=
  ({ c with inbox := c.inbox ++ [item], receivers := [] }, c.receivers)

/-- Puts nothing in any more. -/
def finish (c : Scripted) : Scripted × List Ticket :=
  ({ c with ended := true, receivers := [] }, c.receivers)

/-- Sends, or fails as the script says. -/
def send (c : Scripted) (msg : Bytes) : Scripted × Except TransportError Unit :=
  match c.sendErrors with
  | err :: rest => ({ c with sendErrors := rest }, .error err)
  | [] => ({ c with sent := msg :: c.sent }, .ok ())

/-- Receives what the script has put in, or waits. -/
def recv (c : Scripted) (t : Ticket) : Scripted × Option (Except TransportError Bytes) :=
  match c.inbox with
  | item :: rest => ({ c with inbox := rest }, some item)
  | [] =>
    if c.ended then (c, some (.error .closed))
    else
      ({ c with receivers := if c.receivers.contains t then c.receivers else c.receivers ++ [t] },
        none)

/-- Lets a receiver wait no longer. -/
def leave (c : Scripted) (t : Ticket) : Scripted :=
  { c with receivers := c.receivers.filter (· ≠ t) }

/-- Closes, or fails as the script says, once. -/
def close (c : Scripted) : Scripted × Except TransportError Unit :=
  ({ c with closeError := none }, match c.closeError with
    | some err => .error err
    | none => .ok ())

end Scripted

end PeerRpc
