import PeerRpc.Error

/-!
# PeerRpc.Config -- settings of an endpoint and of a channel

`Config` holds what one endpoint is told: its side, how long a call waits for its answer, and how
many calls may wait at once. `ChannelLimits` holds what a channel is told: the longest message and
how many messages wait in a direction before a sender has to.
-/

namespace PeerRpc

/-- The settings of an endpoint. -/
structure Config where
  side : Side
  /-- How long a call waits for its answer; for ever, if absent. -/
  requestTimeout : Option Duration := none
  /-- How many calls may wait for their answers at once. -/
  maxInFlight : Nat := 10000
  deriving Inhabited

namespace Config

/-- The settings an endpoint of a side starts from. -/
def ofSide (s : Side) : Config := { side := s }

/-- The diagnostic text of the settings. -/
def debug (c : Config) : String :=
  Quoted.record "RpcConfig" [
    ("side", c.side.title),
    ("request_timeout", Quoted.option (c.requestTimeout.map Duration.text)),
    ("max_in_flight", toString c.maxInFlight)] false

end Config

/-- The settings of a channel. -/
structure ChannelLimits where
  /-- The length of the longest message. -/
  maxMessageSize : Nat := 10 * 1024 * 1024
  /-- How many messages wait in a direction before a sender has to. -/
  queueCapacity : Nat := 1000
  deriving Inhabited

namespace ChannelLimits

/-- Refuses a message that is too long. -/
def checkSize (l : ChannelLimits) (size : Nat) : Except TransportError Unit :=
  if l.maxMessageSize < size then .error (.frameTooLarge size l.maxMessageSize) else .ok ()

end ChannelLimits

end PeerRpc
