import PeerRpc.Channel.Memory
import PeerRpc.Channel.Scripted
import PeerRpc.Channel.Stream

/-!
# PeerRpc.Channel.Link -- channels of every kind

A link is what two sides are joined by: a pair of ends in one process, two stream ends on a pair of
pipes, a single stream end whose pipes someone else holds, or a script. `send`, `recv`, `close` and
`drop` do on a side's end what its kind of channel does.
-/

namespace PeerRpc

/-- A channel between two sides. -/
inductive Link where
  | memory (p : Memory.Pair)
  | stream (main ext : Stream.End)
  /-- A stream end of one side; the other side holds the pipes. -/
  | bare (s : Side) (e : Stream.End)
  /-- A script for one side. -/
  | scripted (s : Side) (c : Scripted)
  deriving Inhabited

namespace Link

/-- Two stream ends in one process. -/
def streamPair (l : ChannelLimits) : Link :=
  .stream (.ofLimits l Stream.pipeCapacity) (.ofLimits l Stream.pipeCapacity)

/-- Two ends of queues in one process. -/
def memoryPair (l : ChannelLimits) : Link := .memory (.ofLimits l)

/-- The stream end of a side. -/
def streamEnd? (l : Link) (s : Side) : Option Stream.End :=
  match l with
  | stream m x => some (match s with
    | .main => m
    | .ext => x)
  | bare s' e => if s = s' then some e else none
  | _ => none

/-- The link with another stream end for a side. Two ends share their pipes: what one writes to, the
other reads from. -/
def setStreamEnd (l : Link) (s : Side) (e : Stream.End) : Link :=
  match l, s with
  | stream _ x, .main => stream e { x with inbound := e.outbound, outbound := e.inbound }
  | stream m _, .ext => stream { m with inbound := e.outbound, outbound := e.inbound } e
  | bare s' e', _ => bare s' (if s = s' then e else e')
  | l, _ => l

/-- Whether a side's end is closed. -/
def isClosed (l : Link) (s : Side) : Bool :=
  match l with
  | memory p => p.closed.fired
  | scripted .. => false
  | l => ((l.streamEnd? s).map fun e => e.closed.fired).getD false

/-- The diagnostic text of a side's end, whose id is not told. -/
def debug (l : Link) (s : Side) (id : String) : String :=
  match l with
  | memory p => p.debug id
  | scripted .. => "Scripted"
  | l => ((l.streamEnd? s).map fun e => e.debug id).getD ""

/-- A send that is not done. -/
inductive Sending where
  | fresh (msg : Bytes)
  | memory (op : Memory.Sending)
  | stream (op : Stream.Sending)

/-- A receive that is not done. -/
inductive Receiving where
  | fresh
  | memory (op : Memory.Receiving)
  | stream (op : Stream.Receiving)

/-- A close that is not done. -/
inductive Closing where
  | fresh
  | stream (op : Stream.Closing)

/-- The time at which a close gives up. -/
def Closing.deadline? : Closing → Option Nat
  | fresh => none
  | stream op => op.deadline?

/-- A try on one kind of channel as a try on the link. -/
def lift {χ ω ρ Ω : Type} (put : χ → Link) (wrap : ω → Ω) (t : Try χ ω ρ) : Try Link Ω ρ :=
  ⟨put t.state, t.wakes, match t.progress with
    | .pending op => .pending (wrap op)
    | .done r => .done r⟩

/-- Tries to send from a side. -/
def send (s : Side) (t : Ticket) (op : Sending) (l : Link) :
    Try Link Sending (Except TransportError Unit) :=
  match l with
  | memory p =>
    let op := match op with
      | .fresh msg => Memory.Sending.fresh msg
      | .memory op => op
      | .stream _ => .blocked
    lift memory .memory (Memory.send s t op p)
  | scripted s' c =>
    match op with
    | .fresh msg =>
      let (c, r) := c.send msg
      .done (scripted s' c) r []
    | _ => .done (scripted s' c) (.error .closed) []
  | l =>
    match l.streamEnd? s with
    | none => .done l (.error .closed) []
    | some e =>
      let op := match op with
        | .fresh msg => Stream.Sending.fresh msg
        | .stream op => op
        | .memory _ => .writing .flushing
      lift (l.setStreamEnd s) .stream (Stream.send t op e)

/-- Takes a send back. -/
def abandonSend (s : Side) (t : Ticket) (l : Link) : Link × List Ticket :=
  match l with
  | memory p =>
    let (p, w) := Memory.abandonSend s t p
    (memory p, w)
  | scripted .. => (l, [])
  | l =>
    match l.streamEnd? s with
    | none => (l, [])
    | some e =>
      let (e, w) := Stream.abandonWrite t e
      (l.setStreamEnd s e, w)

/-- Tries to receive at a side. -/
def recv (s : Side) (t : Ticket) (op : Receiving) (l : Link) :
    Try Link Receiving (Except TransportError Bytes) :=
  match l with
  | memory p =>
    let op := match op with
      | .memory op => op
      | _ => Memory.Receiving.fresh
    lift memory .memory (Memory.recv s t op p)
  | scripted s' c =>
    match c.recv t with
    | (c, some r) => .done (scripted s' c) r []
    | (c, none) => .pending (scripted s' c) .fresh []
  | l =>
    match l.streamEnd? s with
    | none => .done l (.error .closed) []
    | some e =>
      let op := match op with
        | .stream op => op
        | _ => Stream.Receiving.fresh
      lift (l.setStreamEnd s) .stream (Stream.recv t op e)

/-- Takes a receive back. -/
def abandonRecv (s : Side) (t : Ticket) (op : Receiving) (l : Link) : Link × List Ticket :=
  match l with
  | memory p =>
    let op := match op with
      | .memory op => op
      | _ => Memory.Receiving.fresh
    let (p, w) := Memory.abandonRecv s t op p
    (memory p, w)
  | scripted s' c => (scripted s' (c.leave t), [])
  | l =>
    match l.streamEnd? s with
    | none => (l, [])
    | some e =>
      let (e, w) := Stream.abandonRecv t e
      (l.setStreamEnd s e, w)

/-- Tries to close a side's end at the time `now`. -/
def close (now : Nat) (s : Side) (t : Ticket) (op : Closing) (l : Link) : Try Link Closing Unit :=
  match l with
  | memory p =>
    let (p, w) := p.close
    .done (memory p) () w
  | scripted s' c => .done (scripted s' c.close.1) () []
  | l =>
    match l.streamEnd? s with
    | none => .done l () []
    | some e =>
      let op := match op with
        | .stream op => op
        | .fresh => Stream.Closing.fresh
      lift (l.setStreamEnd s) .stream (Stream.close now t op e)

/-- Takes a close back. -/
def abandonClose (s : Side) (t : Ticket) (l : Link) : Link × List Ticket :=
  match l with
  | memory _ => (l, [])
  | l => l.abandonSend s t

/-- Lets go of a side's end. -/
def drop (s : Side) (l : Link) : Link × List Ticket :=
  match l with
  | memory p =>
    let (p, w) := p.drop s
    (memory p, w)
  | scripted .. => (l, [])
  | l =>
    match l.streamEnd? s with
    | none => (l, [])
    | some e =>
      let (e, w) := e.drop
      (l.setStreamEnd s e, w)

/-! ## The other side of the pipes -/

/-- Writes to the pipe that a side's stream end reads from, as much as there is room for, and does
not wait for more. -/
def pipeWrite (s : Side) (t : Ticket) (bs : Bytes) (l : Link) : Link × List Ticket × Pipe.Room :=
  match l.streamEnd? s with
  | none => (l, [], .broken)
  | some e =>
    let (pipe, w, room) := e.inbound.write t bs
    (l.setStreamEnd s { e with inbound := { pipe with writer := none } }, w, room)

/-- Reads what a side's stream end has written, and does not wait for more. -/
def pipeRead (s : Side) (t : Ticket) (l : Link) : Link × List Ticket × Pipe.Found :=
  match l.streamEnd? s with
  | none => (l, [], .finished)
  | some e =>
    let (pipe, w, found) := e.outbound.read t
    (l.setStreamEnd s { e with outbound := { pipe with reader := none } }, w, found)

/-- Ends the stream to a side's stream end. -/
def pipeShutdown (s : Side) (l : Link) : Link × List Ticket :=
  match l.streamEnd? s with
  | none => (l, [])
  | some e =>
    let (pipe, w) := e.inbound.closeWrite
    (l.setStreamEnd s { e with inbound := pipe }, w)

/-- Lets go of the other side of the pipes. -/
def pipeDrop (s : Side) (l : Link) : Link × List Ticket :=
  let (l, w) := l.pipeShutdown s
  match l.streamEnd? s with
  | none => (l, w)
  | some e =>
    let (pipe, w') := e.outbound.closeRead
    (l.setStreamEnd s { e with outbound := pipe }, w ++ w')

end Link

end PeerRpc
