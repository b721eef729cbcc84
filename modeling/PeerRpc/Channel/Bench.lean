import PeerRpc.Channel.Link
import PeerRpc.Schedule

/-!
# PeerRpc.Channel.Bench -- many tasks on one channel

A bench holds a link and tasks that send, receive and close on its two ends. It shows how channels
behave under concurrent use: each task is named by its ticket, a task may be taken back while it
waits, and an end that has been let go of stays alive until the last task on it is done.

One poll of a task is not interrupted: tasks take turns as on one thread, and a second worker between
two looks of one poll, or two threads that close an end at once, are left out.

On a link with one stream end only, the bench itself holds the other side of the pipes.
-/

namespace PeerRpc

namespace Bench

/-- What a task does. -/
inductive Work where
  | send (op : Link.Sending)
  | recv (op : Link.Receiving)
  | close (op : Link.Closing)

/-- A task on an end. -/
structure Task where
  side : Side
  work : Work
  /-- Whether the task is taken back. -/
  aborted : Bool := false

/-- What a task came to: a message if it received one. -/
abbrev Result := Except TransportError (Option Bytes)

end Bench

open Bench in
/-- A link with tasks on its ends. -/
structure Bench where
  link : Link
  now : Nat := 0
  ready : List Ticket := []
  tasks : List (Ticket × Task) := []
  /-- The tasks that are done, the last first. -/
  finished : List (Ticket × Result) := []
  /-- The ends that are held. -/
  held : List Side
  /-- The ends that have gone. -/
  gone : List Side := []

namespace Bench

/-- Makes tasks ready. -/
def wake (ts : List Ticket) (b : Bench) : Bench := { b with ready := enqueueTickets b.ready ts }

/-- Lets an end go once it is neither held nor used. -/
def release (s : Side) (b : Bench) : Bench :=
  if b.held.contains s || b.gone.contains s || b.tasks.any fun t => t.2.side = s then b
  else
    let (link, w) := b.link.drop s
    wake w { b with link := link, gone := s :: b.gone }

/-- Removes a task. -/
def remove (t : Ticket) (s : Side) (b : Bench) : Bench :=
  release s { b with tasks := b.tasks.filter fun x => x.1 ≠ t }

/-- Changes what a task does. -/
def setWork (t : Ticket) (w : Work) (b : Bench) : Bench :=
  { b with tasks := b.tasks.map fun (u, task) =>
      if u = t then (u, { task with work := w }) else (u, task) }

/-- Goes on after a try of a task. -/
def proceed {ω ρ : Type} (t : Ticket) (s : Side) (wrap : ω → Work) (result : ρ → Result)
    (r : Try Link ω ρ) (b : Bench) : Bench :=
  let b := wake r.wakes { b with link := r.state }
  match r.progress with
  | .pending op => b.setWork t (wrap op)
  | .done x => remove t s { b with finished := (t, result x) :: b.finished }

/-- Takes a task back. -/
def abandon (t : Ticket) (task : Task) (b : Bench) : Bench :=
  let (link, w) := match task.work with
    | .send _ => b.link.abandonSend task.side t
    | .recv op => b.link.abandonRecv task.side t op
    | .close _ => b.link.abandonClose task.side t
  remove t task.side (wake w { b with link := link })

/-- Lets a task take its turn. -/
def turn (t : Ticket) (b : Bench) : Bench :=
  match b.tasks.find? fun x => x.1 = t with
  | none => b
  | some (_, task) =>
    if task.aborted then abandon t task b
    else
      let s := task.side
      match task.work with
      | .send op =>
        proceed t s .send (fun r => r.map fun () => none) (b.link.send s t op) b
      | .recv op => proceed t s .recv (fun r => r.map some) (b.link.recv s t op) b
      | .close op => proceed t s .close (fun () => .ok none) (b.link.close b.now s t op) b

/-- When a task wants to be woken. -/
def Task.deadline? (task : Task) : Option Nat :=
  match task.work with
  | .close op => op.deadline?
  | _ => none

/-- How the tasks of a bench take turns. -/
def schedule : Schedule Bench where
  ready b := b.ready
  setReady b r := { b with ready := r }
  turn := turn
  now b := b.now
  setNow b n := { b with now := n }
  deadlines b := b.tasks.filterMap fun (t, task) => task.deadline?.map fun d => (d, t)

/-- Starts a task on an end that is held. -/
def start (t : Ticket) (s : Side) (w : Work) (b : Bench) : Bench :=
  if b.held.contains s then wake [t] { b with tasks := b.tasks ++ [(t, ⟨s, w, false⟩)] } else b

/-- Takes a task back. -/
def abort (t : Ticket) (b : Bench) : Bench :=
  wake [t] { b with tasks := b.tasks.map fun (u, task) =>
    if u = t then (u, { task with aborted := true }) else (u, task) }

/-- Lets go of an end. -/
def letGo (s : Side) (b : Bench) : Bench :=
  release s { b with held := b.held.filter (· ≠ s) }

/-! ## The other side of the pipes -/

/-- The ticket of the bench itself, which never waits. -/
def self : Ticket := 0

/-- Writes to the only stream end, as much as there is room for. -/
def pipeWrite (s : Side) (bs : Bytes) (b : Bench) : Bench × Pipe.Room :=
  let (link, w, room) := b.link.pipeWrite s self bs
  (wake w { b with link := link }, room)

/-- Reads all that arrives from the only stream end, letting tasks go on in between. Says whether
the stream has ended. -/
def pipeReadAll (s : Side) : (fuel : Nat) → List Bytes → Bench → Bench × Bytes × Bool
  | 0, acc, b => (b, acc.reverse.flatten, false)
  | fuel + 1, acc, b =>
    let (link, w, found) := b.link.pipeRead s self
    let b := wake w { b with link := link }
    match found with
    | .octets bs => pipeReadAll s fuel (bs :: acc) (schedule.settle b)
    | .finished => (b, acc.reverse.flatten, true)
    | .nothing => (b, acc.reverse.flatten, false)

/-- Ends the stream to the only stream end. -/
def pipeShutdown (s : Side) (b : Bench) : Bench :=
  let (link, w) := b.link.pipeShutdown s
  wake w { b with link := link }

/-- Lets go of the other side of the pipes. -/
def pipeDrop (s : Side) (b : Bench) : Bench :=
  let (link, w) := b.link.pipeDrop s
  wake w { b with link := link }

end Bench

end PeerRpc
