import PeerRpc.Call
import PeerRpc.Channel.Link
import PeerRpc.Schedule
import PeerRpc.Service

/-!
# PeerRpc.Session.Basic -- endpoints, tasks and callers under one clock

A `Session` is a link with an endpoint on one or both of its sides, and everyone who uses them: the
reader and the writer of each endpoint, the runs of handlers, and callers. Each of them is a task
that takes turns with the others.

An endpoint is held by handles, by proxies, and by tasks that say so in `Task.holds`.
-/

namespace PeerRpc

namespace Session

/-- An endpoint with those who hold it. -/
structure Party where
  endpoint : Endpoint Service
  /-- The number of handles. -/
  handles : Nat := 1
  /-- Whether the end of the link has been let go of. -/
  released : Bool := false

/-- What the run of a handler waits for. -/
inductive Pause where
  /-- Its first turn. -/
  | fresh (a : Activity)
  | untilStopped (next : Activity)
  | forever
  | sleeping (wakeAt : Nat) (next : Activity)
  | gate (name : String) (next : Activity)
  | reply (call : Call) (next : CallResult → Activity)

/-- What a task does. -/
inductive Work where
  /-- Receives messages and acts on them. -/
  | read (op : Link.Receiving)
  /-- Closes the channel after the last message has been received. -/
  | hangUp (op : Link.Closing)
  /-- Sends messages; one that is being sent is told. -/
  | write (sending : Option (Outbound × Link.Sending))
  /-- Runs a handler. -/
  | handle (run : Run Service) (pause : Pause)
  /-- Closes an endpoint and its channel. -/
  | close (op : Link.Closing)
  /-- Waits until an endpoint is closed. -/
  | awaitClosed
  /-- Waits until an endpoint is closed and its loops and handlers have ended. -/
  | awaitEnd
  /-- Waits for a call, unless the call is dropped. -/
  | awaitCall (caller : Nat) (dropped : Bool)

/-- Whether a task belongs to an endpoint itself: it is one of its loops or runs a handler. -/
def Work.isInternal : Work → Bool
  | read _ => true
  | hangUp _ => true
  | write _ => true
  | handle .. => true
  | _ => false

/-- Whether a task keeps an endpoint and its channel, as a loop does and a run that is to be
answered. -/
def Work.keepsChannel : Work → Bool
  | handle run _ => run.request.isSome
  | w => w.isInternal

/-- A task of a side. -/
structure Task where
  side : Side
  work : Work
  /-- Whether the task holds the endpoint of its side. -/
  holds : Bool := false

/-- A call under a label. -/
structure Caller where
  label : String
  side : Side
  call : Call
  /-- The shape that the caller expects. -/
  shape : Shape
  /-- Whether the call is held and nobody waits for it. -/
  held : Bool

/-- What a task under a label has come to. -/
inductive Ending where
  | call (r : CallResult)
  | done

end Session

open Session in
/-- Endpoints on a link, and everyone who uses them. -/
structure Session where
  link : Link
  main : Option Party := none
  ext : Option Party := none
  now : Nat := 0
  ready : List Ticket := []
  nextTicket : Ticket := 1
  tasks : List (Ticket × Task) := []
  gates : Keyed Permits := []
  /-- The calls that have been made under labels, the first to be made first. -/
  callers : List Caller := []
  proxies : Keyed (Side × Identifier) := []
  /-- What handlers and channels have written, the last line first. -/
  log : List String := []
  /-- The tasks under labels that have ended, the last first. -/
  ended : List (String × Ending) := []

namespace Session

/-! ## Endpoints -/

/-- The party on a side. -/
def party? (w : Session) : Side → Option Party
  | .main => w.main
  | .ext => w.ext

/-- The session with a change to the party on a side. -/
def modifyParty (w : Session) (s : Side) (f : Party → Party) : Session :=
  match s with
  | .main => { w with main := w.main.map f }
  | .ext => { w with ext := w.ext.map f }

/-- The session with another endpoint on a side. -/
def setEndpoint (w : Session) (s : Side) (e : Endpoint Service) : Session :=
  w.modifyParty s fun p => { p with endpoint := e }

/-- The number of handles of a side. -/
def handles (w : Session) (s : Side) : Nat := ((w.party? s).map (·.handles)).getD 0

/-- Whether the endpoint of a side is open. -/
def isOpen (w : Session) (s : Side) : Bool := (w.party? s).any (·.endpoint.isOpen)

/-- Whether the run of a handler has been told to stop. -/
def isStopped (w : Session) (s : Side) (serial : Nat) : Bool :=
  ((w.party? s).bind fun p => p.endpoint.run? serial).any (·.fired)

/-! ## Tasks -/

/-- Makes tasks ready. -/
def wake (ts : List Ticket) (w : Session) : Session :=
  { w with ready := enqueueTickets w.ready ts }

/-- Makes those tasks of a side ready that do something. -/
def wakeWhere (s : Side) (p : Work → Bool) (w : Session) : Session :=
  w.wake ((w.tasks.filter fun (_, task) => task.side = s && p task.work).map Prod.fst)

/-- Lets a task that is taking its turn take another one at once. -/
def again (t : Ticket) (w : Session) : Session :=
  { w with ready := t :: w.ready.filter (· ≠ t) }

/-- Starts a task. -/
def spawn (s : Side) (work : Work) (holds : Bool) (w : Session) : Session :=
  wake [w.nextTicket]
    { w with
      tasks := w.tasks ++ [(w.nextTicket, ⟨s, work, holds⟩)], nextTicket := w.nextTicket + 1 }

/-- The session with a change to a task. -/
def modifyTask (t : Ticket) (f : Task → Task) (w : Session) : Session :=
  { w with tasks := w.tasks.map fun (u, task) => if u = t then (u, f task) else (u, task) }

/-- Changes what a task does. -/
def setWork (t : Ticket) (work : Work) (w : Session) : Session :=
  w.modifyTask t fun task => { task with work := work }

/-- Writes a line to the log. -/
def writeLog (line : String) (w : Session) : Session := { w with log := line :: w.log }

/-- Notes what a task under a label has come to. -/
def noteEnding (label : String) (e : Ending) (w : Session) : Session :=
  { w with ended := (label, e) :: w.ended }

/-- The session after a try of an operation of the link. -/
def setLink (link : Link) (wakes : List Ticket) (w : Session) : Session :=
  wake wakes { w with link := link }

end Session

end PeerRpc
