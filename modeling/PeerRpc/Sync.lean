/-!
# PeerRpc.Sync -- waiting

Tasks run one at a time and wait by leaving a ticket. An operation on something that tasks wait for
returns the tickets of those that may go on, in the order in which they are to be woken; a task that
is woken tries its operation again, so a needless wake-up does no harm.

A `Latch` is a signal that fires once and stays fired. A `Lock` is held by one task at a time and
is handed from its holder to the task that has waited longest.
-/

namespace PeerRpc

/-- The name under which a task waits. -/
abbrev Ticket := Nat

/-- What an operation that may have to wait has come to: it is done, or it goes on from a state. -/
inductive Progress (ω ρ : Type) where
  | pending (op : ω)
  | done (result : ρ)

/-- The result of one try of an operation on `χ`: the state it leaves, the tickets that may go on,
and what the operation has come to. -/
structure Try (χ ω ρ : Type) where
  state : χ
  wakes : List Ticket
  progress : Progress ω ρ

namespace Try

variable {χ ω ρ : Type}

/-- The operation is done. -/
def done (state : χ) (result : ρ) (wakes : List Ticket) : Try χ ω ρ := ⟨state, wakes, .done result⟩

/-- The operation waits. -/
def pending (state : χ) (op : ω) (wakes : List Ticket) : Try χ ω ρ := ⟨state, wakes, .pending op⟩

/-- The try with tickets in front of those that may go on. -/
def after (wakes : List Ticket) (t : Try χ ω ρ) : Try χ ω ρ := { t with wakes := wakes ++ t.wakes }

end Try

/-- A signal that fires once. -/
structure Latch where
  fired : Bool := false
  /-- Who waits for the signal, the first to come first. -/
  waiters : List Ticket := []
  deriving Inhabited

namespace Latch

/-- Fires the signal and lets everyone who waits go on. -/
def fire (l : Latch) : Latch × List Ticket := (⟨true, []⟩, if l.fired then [] else l.waiters)

/-- Lets a task wait. -/
def wait (l : Latch) (t : Ticket) : Latch :=
  if l.fired || l.waiters.contains t then l else { l with waiters := l.waiters ++ [t] }

/-- Lets a task wait no longer. -/
def leave (l : Latch) (t : Ticket) : Latch := { l with waiters := l.waiters.filter (· ≠ t) }

end Latch

/-- Something that one task at a time holds. -/
structure Lock where
  holder : Option Ticket := none
  /-- Who waits for the lock, the first to come first. -/
  queue : List Ticket := []
  deriving Inhabited

namespace Lock

/-- Takes the lock if it is free; otherwise waits for it. -/
def acquire (l : Lock) (t : Ticket) : Lock :=
  match l.holder with
  | none => { l with holder := some t }
  | some _ => { l with queue := l.queue ++ [t] }

/-- Whether a task holds the lock. -/
def heldBy (l : Lock) (t : Ticket) : Bool := l.holder == some t

/-- Hands the lock to the task that has waited longest. -/
def release (l : Lock) : Lock × List Ticket :=
  match l.queue with
  | [] => (⟨none, []⟩, [])
  | t :: rest => (⟨some t, rest⟩, [t])

/-- Lets a task neither hold the lock nor wait for it. -/
def leave (l : Lock) (t : Ticket) : Lock × List Ticket :=
  if l.heldBy t then l.release else ({ l with queue := l.queue.filter (· ≠ t) }, [])

end Lock

/-- A store of permits, which go to those who have waited longest. -/
structure Permits where
  free : Nat := 0
  /-- Who waits for a permit, the first to come first. -/
  queue : List Ticket := []
  /-- Who has been given a permit and has not taken note of it yet. -/
  granted : List Ticket := []
  deriving Inhabited

namespace Permits

/-- Adds a permit. -/
def add (p : Permits) : Permits × List Ticket :=
  match p.queue with
  | [] => ({ p with free := p.free + 1 }, [])
  | t :: rest => ({ p with queue := rest, granted := p.granted ++ [t] }, [t])

/-- Takes a permit, or waits for one. -/
def take (p : Permits) (t : Ticket) : Permits × Bool :=
  if p.granted.contains t then ({ p with granted := p.granted.filter (· ≠ t) }, true)
  else if p.queue.contains t then (p, false)
  else
    match p.free with
    | 0 => ({ p with queue := p.queue ++ [t] }, false)
    | n + 1 => ({ p with free := n }, true)

/-- Lets a task wait no longer; a permit it was given goes on. -/
def leave (p : Permits) (t : Ticket) : Permits × List Ticket :=
  if p.granted.contains t then
    ({ p with granted := p.granted.filter (· ≠ t) } : Permits).add
  else ({ p with queue := p.queue.filter (· ≠ t) }, [])

end Permits

end PeerRpc
