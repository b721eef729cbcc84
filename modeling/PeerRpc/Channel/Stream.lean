import PeerRpc.Channel.Pipe
import PeerRpc.Config
import PeerRpc.Frame

/-!
# PeerRpc.Channel.Stream -- messages over a byte stream

An end of a stream channel writes frames to one pipe and reads frames from another. Its writer and
its reader are each used by one task at a time, in the order in which the tasks came. What has been
encoded stays in the output buffer until it is written, even if the send that put it there is taken
back, so that frames are never torn.

Closing an end stops the sends that are in progress, then sends a close frame and ends the stream,
unless that takes longer than `closeTimeout`. An end that receives a close frame, finds the end of
its input or an error is closed too; it then receives nothing more, whatever its buffer holds.
-/

namespace PeerRpc

namespace Stream

/-- How long a close waits for its frame to be written, in milliseconds. -/
def closeTimeout : Nat := 1000

/-- The capacity of the pipes between two ends in one process. -/
def pipeCapacity : Nat := 64 * 1024

/-- How many octets of output may wait before a frame has to. -/
def outputBound : Nat := 8 * 1024

/-- One end of a stream channel, with its two pipes. -/
structure End where
  limits : ChannelLimits
  closed : Latch := {}
  readLock : Lock := {}
  writeLock : Lock := {}
  /-- What has been read but not taken as a frame. -/
  input : Bytes := []
  /-- Whether the input may hold a frame. -/
  readable : Bool := false
  /-- Whether the end of the input has been found. -/
  ended : Bool := false
  /-- Whether the last frame was refused, after which the input counts as ended. -/
  failed : Bool := false
  /-- What has been encoded but not written. -/
  output : Bytes := []
  /-- Why the next look at the inbound pipe fails. -/
  fault : Option String := none
  inbound : Pipe
  outbound : Pipe
  deriving Inhabited

/-- An end with these limits on two pipes of a capacity. -/
def End.ofLimits (l : ChannelLimits) (capacity : Nat) : End :=
  { limits := l, inbound := { capacity := capacity }, outbound := { capacity := capacity } }

namespace End

/-- Marks the end as closed. -/
def markClosed (s : End) : End × List Ticket :=
  let (closed, wakes) := s.closed.fire
  ({ s with closed := closed }, wakes)

/-- A task waits for the end to close, beside what else it waits for. -/
def watch (s : End) (t : Ticket) : End := { s with closed := s.closed.wait t }

/-- A task waits no longer for the end to close. -/
def unwatch (s : End) (t : Ticket) : End := { s with closed := s.closed.leave t }

/-- Hands the writer on. -/
def releaseWriter (s : End) : End × List Ticket :=
  let (lock, wakes) := s.writeLock.release
  ({ s with writeLock := lock }, wakes)

/-- Hands the reader on. -/
def releaseReader (s : End) : End × List Ticket :=
  let (lock, wakes) := s.readLock.release
  ({ s with readLock := lock }, wakes)

/-- Lets go of the end: both pipes are cut. -/
def drop (s : End) : End × List Ticket :=
  let (outbound, w) := s.outbound.closeWrite
  let (inbound, w') := s.inbound.closeRead
  ({ s with outbound := outbound, inbound := inbound }, w ++ w')

/-- The diagnostic text of an end, whose id is not told. -/
def debug (s : End) (id : String) : String :=
  Quoted.record "StreamChannel" [("id", id), ("closed", toString s.closed.fired)] true

end End

/-! ## Writing frames -/

/-- What a step of writing finds. -/
inductive Written where
  | all
  | waits
  | failed (e : StreamError)

/-- Writes the output. Each round writes something, or is the last. -/
def flush (t : Ticket) (s : End) : End × List Ticket × Written :=
  go (s.output.length + 1) s []
where
  /-- The rounds, given a bound on their number and the tickets so far. -/
  go : Nat → End → List Ticket → End × List Ticket × Written
    | 0, s, wakes => (s, wakes, .waits)
    | fuel + 1, s, wakes =>
      if s.output.isEmpty then (s, wakes, .all)
      else
        match s.outbound.write t s.output with
        | (pipe, w, .written n) =>
          go fuel { s with outbound := pipe, output := s.output.drop n } (wakes ++ w)
        | (pipe, w, .full) => ({ s with outbound := pipe }, wakes ++ w, .waits)
        | (pipe, w, .broken) => ({ s with outbound := pipe }, wakes ++ w, .failed .brokenPipe)

/-- How far the writing of a frame has come. -/
inductive Writing where
  /-- The frame waits for older output to be written. -/
  | feeding (f : Frame)
  /-- The frame is in the output. -/
  | flushing
  /-- All is written and the stream is to be ended. -/
  | ending

/-- Puts a frame into the output, once that is short enough, and writes it. With `last`, ends the
stream after it. -/
def write (t : Ticket) (last : Bool) (op : Writing) (s : End) :
    Try End Writing (Except StreamError Unit) :=
  let finish (s : End) (wakes : List Ticket) : Try End Writing (Except StreamError Unit) :=
    match flush t s with
    | (s, w, .waits) => .pending s (if last then .ending else .flushing) (wakes ++ w)
    | (s, w, .failed e) => .done s (.error e) (wakes ++ w)
    | (s, w, .all) =>
      if last then
        let (pipe, w') := s.outbound.closeWrite
        .done { s with outbound := pipe } (.ok ()) (wakes ++ w ++ w')
      else .done s (.ok ()) (wakes ++ w)
  let append (f : Frame) (s : End) (wakes : List Ticket) :
      Try End Writing (Except StreamError Unit) :=
    match f.encode s.limits.maxMessageSize with
    | .error e => .done s (.error (.frame e)) wakes
    | .ok bs => finish { s with output := s.output ++ bs } wakes
  match op with
  | .feeding f =>
    if s.output.length < outputBound then append f s []
    else
      match flush t s with
      | (s, w, .waits) => .pending s (.feeding f) w
      | (s, w, .failed e) => .done s (.error e) w
      | (s, w, .all) => append f s w
  | .flushing => finish s []
  | .ending => finish s []

/-! ## Sending -/

/-- A send that is not done. -/
inductive Sending where
  /-- It has not been tried. -/
  | fresh (msg : Bytes)
  /-- It waits for the writer. -/
  | locking (msg : Bytes)
  /-- It writes. -/
  | writing (op : Writing)

/-- Tries to send while holding the writer. -/
def sendHolding (t : Ticket) (op : Writing) (s : End) :
    Try End Sending (Except TransportError Unit) :=
  if s.closed.fired then
    let (s, w) := s.releaseWriter
    .done s (.error .closed) w
  else
    match write t false op s with
    | ⟨s, w, .pending op⟩ => .pending (s.watch t) (.writing op) w
    | ⟨s, w, .done (.ok ())⟩ =>
      let (s, w') := (s.unwatch t).releaseWriter
      .done s (.ok ()) (w ++ w')
    | ⟨s, w, .done (.error e)⟩ =>
      let (s, w') := (s.unwatch t).releaseWriter
      let (s, w'') := s.markClosed
      .done s (.error (.stream e)) (w ++ w' ++ w'')

/-- Tries to send. -/
def send (t : Ticket) (op : Sending) (s : End) : Try End Sending (Except TransportError Unit) :=
  let locking (msg : Bytes) (s : End) : Try End Sending (Except TransportError Unit) :=
    if s.writeLock.heldBy t then sendHolding t (.feeding (Frame.message msg)) s
    else .pending s (.locking msg) []
  match op with
  | .fresh msg =>
    if s.closed.fired then .done s (.error .closed) []
    else
      match s.limits.checkSize msg.length with
      | .error e => .done s (.error e) []
      | .ok () => locking msg { s with writeLock := s.writeLock.acquire t }
  | .locking msg => locking msg s
  | .writing op => sendHolding t op s

/-- Lets a task that sends or closes go. What it has encoded stays in the output. -/
def abandonWrite (t : Ticket) (s : End) : End × List Ticket :=
  let (lock, w) := s.writeLock.leave t
  (({ s with writeLock := lock } : End).unwatch t, w)

/-! ## Receiving -/

/-- A receive that is not done. -/
inductive Receiving where
  /-- It has not been tried. -/
  | fresh
  /-- It waits for the reader. -/
  | locking
  /-- It reads. -/
  | reading

/-- What a look for the next frame finds. -/
inductive Next where
  | frame (f : Frame)
  | failed (e : StreamError)
  | finished
  | waits

/-- Looks for the next frame: takes it from the input, or reads more input, or waits. After a
refused frame the input counts as ended once. -/
def next (t : Ticket) (s : End) : End × List Ticket × Next :=
  go (s.inbound.content.length + 4) s []
where
  /-- The rounds, given a bound on their number and the tickets so far. -/
  go : Nat → End → List Ticket → End × List Ticket × Next
    | 0, s, wakes => (s, wakes, .waits)
    | fuel + 1, s, wakes =>
      if s.failed then ({ s with readable := false, failed := false }, wakes, .finished)
      else if s.readable then
        if s.ended then
          match Frame.decodeAtEnd s.limits.maxMessageSize s.input with
          | .frame f rest => ({ s with input := rest }, wakes, .frame f)
          | .finished => ({ s with readable := false }, wakes, .finished)
          | .refused e rest => ({ s with input := rest, failed := true }, wakes, .failed e)
        else
          match Frame.decode s.limits.maxMessageSize s.input with
          | .frame f rest => ({ s with input := rest }, wakes, .frame f)
          | .refused e rest => ({ s with input := rest, failed := true }, wakes, .failed (.frame e))
          | .waiting => go fuel { s with readable := false } wakes
      else
        match s.fault with
        | some text => ({ s with fault := none, failed := true }, wakes, .failed (.other text))
        | none =>
          match s.inbound.read t with
          | (pipe, w, .octets bs) =>
            go fuel
              { s with inbound := pipe, input := s.input ++ bs, ended := false, readable := true }
              (wakes ++ w)
          | (pipe, w, .finished) =>
            if s.ended then ({ s with inbound := pipe }, wakes ++ w, .finished)
            else go fuel { s with inbound := pipe, ended := true, readable := true } (wakes ++ w)
          | (pipe, w, .nothing) => ({ s with inbound := pipe }, wakes ++ w, .waits)

/-- Tries to receive. -/
def recv (t : Ticket) (op : Receiving) (s : End) :
    Try End Receiving (Except TransportError Bytes) :=
  let finish (s : End) (wakes : List Ticket) (close : Bool) (r : Except TransportError Bytes) :
      Try End Receiving (Except TransportError Bytes) :=
    let (s, w) := (s.unwatch t).releaseReader
    let (s, w') := if close then s.markClosed else (s, [])
    .done s r (wakes ++ w ++ w')
  let reading (s : End) : Try End Receiving (Except TransportError Bytes) :=
    match next t s with
    | (s, w, .frame f) =>
      match f.type with
      | .message => finish s w false (.ok f.payload)
      | .close => finish s w true (.error .closed)
    | (s, w, .failed e) => finish s w true (.error (.stream e))
    | (s, w, .finished) => finish s w true (.error .closed)
    | (s, w, .waits) =>
      if s.closed.fired then finish s w false (.error .closed)
      else .pending (s.watch t) .reading w
  let locking (s : End) : Try End Receiving (Except TransportError Bytes) :=
    if s.readLock.heldBy t then reading s else .pending s .locking []
  match op with
  | .fresh =>
    if s.closed.fired then .done s (.error .closed) []
    else locking { s with readLock := s.readLock.acquire t }
  | .locking => locking s
  | .reading => reading s

/-- Takes a receive back. What it has read stays in the input. -/
def abandonRecv (t : Ticket) (s : End) : End × List Ticket :=
  let (lock, w) := s.readLock.leave t
  (({ s with readLock := lock } : End).unwatch t, w)

/-! ## Closing -/

/-- A close that is not done. -/
inductive Closing where
  /-- It has not been tried. -/
  | fresh
  /-- It waits for the writer. -/
  | locking
  /-- It writes the close frame and gives up at the deadline. -/
  | writing (op : Writing) (deadline : Nat)

/-- The time at which a close gives up. -/
def Closing.deadline? : Closing → Option Nat
  | writing _ deadline => some deadline
  | _ => none

/-- Tries to close at the time `now`. -/
def close (now : Nat) (t : Ticket) (op : Closing) (s : End) : Try End Closing Unit :=
  let writing (op : Writing) (deadline : Nat) (s : End) : Try End Closing Unit :=
    match write t true op s with
    | ⟨s, w, .pending op⟩ =>
      if deadline ≤ now then
        let (s, w') := s.releaseWriter
        .done s () (w ++ w')
      else .pending s (.writing op deadline) w
    | ⟨s, w, .done _⟩ =>
      let (s, w') := s.releaseWriter
      .done s () (w ++ w')
  let locking (s : End) : Try End Closing Unit :=
    if s.writeLock.heldBy t then writing (.feeding Frame.close) (now + closeTimeout) s
    else .pending s .locking []
  match op with
  | .fresh =>
    if s.closed.fired then .done s () []
    else
      let (s, w) := s.markClosed
      (locking { s with writeLock := s.writeLock.acquire t }).after w
  | .locking => locking s
  | .writing op deadline => writing op deadline s

end Stream

end PeerRpc
