import PeerRpc.Sync

/-!
# PeerRpc.Schedule -- tasks that take turns

Tasks are served in the order in which they became ready; a task that is ready already does not
become ready twice. `settle` lets tasks go on until none can, and `advance` moves a clock forward,
stopping at every deadline on the way so that the tasks that wait for it may go on.

`Schedule` holds what a system has to say about its tasks: which are ready, how one takes a turn,
and when one wants to be woken. The number of turns is bounded by `patience`, far beyond what a
system that comes to rest needs.
-/

namespace PeerRpc

/-- Puts tickets at the end of a queue, each that is not in it. -/
def enqueueTickets (ready : List Ticket) (ts : List Ticket) : List Ticket :=
  ts.foldl (fun q t => if q.contains t then q else q ++ [t]) ready

/-- How the tasks of a system take turns under a clock. -/
structure Schedule (σ : Type) where
  /-- The tasks that are ready, the first to go first. -/
  ready : σ → List Ticket
  setReady : σ → List Ticket → σ
  /-- Lets a task take its turn. -/
  turn : Ticket → σ → σ
  now : σ → Nat
  setNow : σ → Nat → σ
  /-- The tasks that wait for a time, with that time. -/
  deadlines : σ → List (Nat × Ticket)

namespace Schedule

variable {σ : Type}

/-- The greatest number of turns between two rests. -/
def patience : Nat := 1000000

/-- Makes tasks ready. -/
def wake (m : Schedule σ) (ts : List Ticket) (s : σ) : σ :=
  m.setReady s (enqueueTickets (m.ready s) ts)

/-- Lets ready tasks take their turns, at most `fuel` of them. -/
def turns (m : Schedule σ) : (fuel : Nat) → σ → σ
  | 0, s => s
  | fuel + 1, s =>
    match m.ready s with
    | [] => s
    | t :: rest => turns m fuel (m.turn t (m.setReady s rest))

/-- Lets tasks go on until none can. -/
def settle (m : Schedule σ) (s : σ) : σ := m.turns patience s

/-- The first time up to `limit` that a task waits for. -/
def nextDeadline (m : Schedule σ) (limit : Nat) (s : σ) : Option Nat :=
  ((m.deadlines s).map Prod.fst).foldl (fun best d =>
    if limit < d then best
    else some (match best with
      | none => d
      | some b => min b d)) none

/-- Makes the tasks ready whose time has come, and lets tasks go on until none can. -/
def expire (m : Schedule σ) (s : σ) : σ :=
  let due := (m.deadlines s).filter fun d => d.1 ≤ m.now s
  m.settle (m.wake (due.map Prod.snd) s)

/-- Moves the clock to `limit`, stopping at the deadlines on the way, at most `fuel` of them. -/
def advanceTo (m : Schedule σ) (limit : Nat) : (fuel : Nat) → σ → σ
  | 0, s => m.setNow s limit
  | fuel + 1, s =>
    match m.nextDeadline limit s with
    | none => m.setNow s limit
    | some d => advanceTo m limit fuel (m.expire (m.setNow s (max d (m.now s))))

/-- Moves the clock forward. -/
def advance (m : Schedule σ) (ms : Nat) (s : σ) : σ := m.advanceTo (m.now s + ms) patience s

end Schedule

end PeerRpc
