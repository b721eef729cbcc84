import PeerRpc.Bytes
import PeerRpc.Config
import PeerRpc.Sync

/-!
# PeerRpc.Channel.Memory -- two ends in one process

Each direction is a queue of bounded length. A sender that finds no room waits with its message, and
a receiver that finds no message waits for one; both are served in the order in which they came.
Closing either end, or letting go of it, closes both: from then on no message enters a queue, but
messages that are in one are still received. An end is named by the side that uses it.

`send` and `recv` try an operation once: it is done, or the task waits and tries again when it is
woken. One try is not interrupted: nobody else comes between its look at the signal and its look at
the queue. `abandonSend` and `abandonRecv` take an operation back that still waits: its message is
withdrawn unless it is in the queue already, and a message that was announced to a receiver is
announced to the others.
-/

namespace PeerRpc

namespace Memory

/-! ## One direction -/

/-- A queue of messages. -/
structure Queue where
  /-- How many messages may wait before a sender has to. -/
  capacity : Nat
  messages : List Bytes := []
  /-- The senders that wait for room, with their messages. -/
  senders : List (Ticket × Bytes) := []
  /-- The receivers that wait for a message and have not been told of one. -/
  receivers : List Ticket := []
  /-- Whether one of the two ends has gone. -/
  cut : Bool := false
  deriving Inhabited

namespace Queue

/-- Moves messages of waiting senders into the queue while there is room for them, counting `extra`
places more than the capacity. -/
def letIn (extra : Nat) (q : Queue) : Queue × List Ticket :=
  let n := q.capacity + extra - q.messages.length
  let moved := q.senders.take n
  ({ q with messages := q.messages ++ moved.map Prod.snd, senders := q.senders.drop n },
    moved.map Prod.fst)

/-- What becomes of a message that is offered to a queue. -/
inductive Offer where
  | accepted
  | blocked
  | refused

/-- Offers a message. A receiver that waits is told of it, whatever the capacity; otherwise it needs
room. -/
def offer (q : Queue) (t : Ticket) (msg : Bytes) : Queue × List Ticket × Offer :=
  if q.cut then (q, [], .refused)
  else
    match q.receivers with
    | r :: rest => ({ q with messages := q.messages ++ [msg], receivers := rest }, [r], .accepted)
    | [] =>
      if q.messages.length < q.capacity then
        ({ q with messages := q.messages ++ [msg] }, [], .accepted)
      else ({ q with senders := q.senders ++ [(t, msg)] }, [], .blocked)

/-- Takes the first message, after letting one sender more than the capacity in. -/
def take (q : Queue) : Queue × List Ticket × Option Bytes :=
  let (q, wakes) := q.letIn 1
  match q.messages with
  | [] => (q, wakes, none)
  | msg :: rest => ({ q with messages := rest }, wakes, some msg)

/-- Takes back the message of a sender that waits. -/
def withdraw (q : Queue) (t : Ticket) : Queue :=
  { q with senders := q.senders.filter fun s => s.1 ≠ t }

/-- Whether a sender still waits. -/
def isWaiting (q : Queue) (t : Ticket) : Bool := q.senders.any fun s => s.1 = t

/-- Lets a receiver wait no longer. If it had been told of a message, all others are told. -/
def dismiss (q : Queue) (t : Ticket) (told : Bool) : Queue × List Ticket :=
  let q := { q with receivers := q.receivers.filter (· ≠ t) }
  if told && !q.messages.isEmpty then ({ q with receivers := [] }, q.receivers) else (q, [])

/-- One of the ends goes: everyone who waits learns of it. -/
def disconnect (q : Queue) : Queue × List Ticket :=
  if q.cut then (q, [])
  else
    let (q, wakes) := q.letIn 0
    ({ q with cut := true }, wakes ++ q.senders.map Prod.fst ++ q.receivers)

end Queue

/-! ## The pair -/

/-- Two connected ends. -/
structure Pair where
  limits : ChannelLimits
  closed : Latch := {}
  /-- The queue from the main side to the extension side. -/
  toExt : Queue
  /-- The queue from the extension side to the main side. -/
  toMain : Queue
  deriving Inhabited

/-- A connected pair with these limits. -/
def Pair.ofLimits (l : ChannelLimits) : Pair :=
  { limits := l,
    toExt := { capacity := l.queueCapacity },
    toMain := { capacity := l.queueCapacity } }

namespace Pair

/-- The queue that an end sends into. -/
def outgoing (p : Pair) : Side → Queue
  | .main => p.toExt
  | .ext => p.toMain

/-- The pair with another queue to send into. -/
def setOutgoing (p : Pair) (e : Side) (q : Queue) : Pair :=
  match e with
  | .main => { p with toExt := q }
  | .ext => { p with toMain := q }

/-- The queue that an end receives from. -/
def incoming (p : Pair) (e : Side) : Queue := p.outgoing e.opposite

/-- The pair with another queue to receive from. -/
def setIncoming (p : Pair) (e : Side) (q : Queue) : Pair := p.setOutgoing e.opposite q

/-- The number of messages that wait at an end. -/
def queued (p : Pair) (e : Side) : Nat := (p.incoming e).messages.length

/-- Closes the pair. -/
def close (p : Pair) : Pair × List Ticket :=
  let (closed, wakes) := p.closed.fire
  ({ p with closed := closed }, wakes)

/-- Lets go of an end. -/
def drop (p : Pair) (e : Side) : Pair × List Ticket :=
  let (p, w) := p.close
  let (out, w₁) := (p.outgoing e).disconnect
  let p := p.setOutgoing e out
  let (inc, w₂) := (p.incoming e).disconnect
  (p.setIncoming e inc, w ++ w₁ ++ w₂)

/-- A task waits no longer for the pair to close. -/
def unwatch (p : Pair) (t : Ticket) : Pair := { p with closed := p.closed.leave t }

/-- A task waits for the pair to close, beside what else it waits for. -/
def watch (p : Pair) (t : Ticket) : Pair := { p with closed := p.closed.wait t }

/-- The diagnostic text of an end, whose id is not told. -/
def debug (p : Pair) (id : String) : String :=
  Quoted.record "MemoryChannel" [("id", id), ("closed", toString p.closed.fired)] true

end Pair

/-! ## Sending -/

/-- A send that is not done. -/
inductive Sending where
  /-- It has not been tried. -/
  | fresh (msg : Bytes)
  /-- It waits for room. -/
  | blocked

/-- Tries to send. -/
def send (e : Side) (t : Ticket) (op : Sending) (p : Pair) :
    Try Pair Sending (Except TransportError Unit) :=
  match op with
  | .fresh msg =>
    if p.closed.fired then .done p (.error .closed) []
    else
      match p.limits.checkSize msg.length with
      | .error err => .done p (.error err) []
      | .ok () =>
        match (p.outgoing e).offer t msg with
        | (_, _, .refused) => .done p (.error .closed) []
        | (q, wakes, .accepted) => .done (p.setOutgoing e q) (.ok ()) wakes
        | (q, wakes, .blocked) => .pending ((p.setOutgoing e q).watch t) .blocked wakes
  | .blocked =>
    let q := p.outgoing e
    if p.closed.fired then .done (p.setOutgoing e (q.withdraw t)) (.error .closed) []
    else if !q.isWaiting t then .done (p.unwatch t) (.ok ()) []
    else if q.cut then .done ((p.setOutgoing e (q.withdraw t)).unwatch t) (.error .closed) []
    else .pending p .blocked []

/-- Takes a send back. -/
def abandonSend (e : Side) (t : Ticket) (p : Pair) : Pair × List Ticket :=
  ((p.setOutgoing e ((p.outgoing e).withdraw t)).unwatch t, [])

/-! ## Receiving -/

/-- A receive that is not done. -/
inductive Receiving where
  /-- It has not been tried. -/
  | fresh
  /-- It waits for a message. `told` says whether it was ever told of one. -/
  | waiting (told : Bool)

/-- Whether a receive has been told of a message. -/
def Receiving.isTold (op : Receiving) (q : Queue) (t : Ticket) : Bool :=
  match op with
  | .fresh => false
  | .waiting told => told || !q.receivers.contains t

/-- Tries to receive. A message that is there is received even if the pair is closed. -/
def recv (e : Side) (t : Ticket) (op : Receiving) (p : Pair) :
    Try Pair Receiving (Except TransportError Bytes) :=
  let told := op.isTold (p.incoming e) t
  let finish (q : Queue) (wakes : List Ticket) (close : Bool) (r : Except TransportError Bytes) :
      Try Pair Receiving (Except TransportError Bytes) :=
    let (q, w) := q.dismiss t told
    let p := (p.setIncoming e q).unwatch t
    let (p, w') := if close then p.close else (p, [])
    .done p r (wakes ++ w' ++ w)
  match (p.incoming e).take with
  | (q, wakes, some msg) => finish q wakes false (.ok msg)
  | (q, wakes, none) =>
    if q.cut then finish q wakes true (.error .closed)
    else if p.closed.fired then finish q wakes false (.error .closed)
    else
      let receivers := if q.receivers.contains t then q.receivers else q.receivers ++ [t]
      .pending ((p.setIncoming e { q with receivers := receivers }).watch t) (.waiting told) wakes

/-- Takes a receive back. -/
def abandonRecv (e : Side) (t : Ticket) (op : Receiving) (p : Pair) : Pair × List Ticket :=
  let q := p.incoming e
  let (q, wakes) := q.dismiss t (op.isTold q t)
  ((p.setIncoming e q).unwatch t, wakes)

end Memory

end PeerRpc
