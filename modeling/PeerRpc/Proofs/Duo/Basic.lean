import PeerRpc.Proofs.Host.Basic
import PeerRpc.Channel.Memory

/-!
# PeerRpc.Proofs.Duo.Basic -- two endpoints on a pair of ends in one process

A `Duo` is a pair of ends with an endpoint at each of them. Each endpoint has a reader, which
receives messages until the endpoint is closed or nothing more can be received and then closes the
pair, and a writer, which sends what waits to be sent. Besides, anything can be done at an endpoint
that a `Host` allows, whoever closes an endpoint closes its end as well, and an end is let go of once
its loops have ended.

`Duo.run` takes moves of all of these in any order. Every move is possible at any time; one that
makes no sense changes nothing. A move of a loop that waits tries again what the loop waits for.
A move is not interrupted: nothing comes between the looks that a loop takes in one turn.
-/

namespace PeerRpc

/-- What the reader of an endpoint does. -/
inductive Reading where
  | receiving (op : Memory.Receiving)
  /-- Closes the pair. -/
  | hangingUp
  | ended

/-- What the writer of an endpoint does. -/
inductive Writing where
  | idle
  | sending (op : Memory.Sending)
  | ended

/-- An endpoint with its loops. -/
structure Desk (η : Type) where
  chronicle : Chronicle η
  reading : Reading := .receiving .fresh
  writing : Writing := .idle

/-- The endpoint with its surroundings. -/
def Desk.host {η : Type} (k : Desk η) : Host η := k.chronicle.host

/-- Two endpoints on a pair. -/
structure Duo (η : Type) where
  pair : Memory.Pair
  desk : Side → Desk η

/-- What can be done next. -/
inductive Move (η : Type) where
  /-- Something is done at an endpoint. -/
  | op (s : Side) (o : Op η)
  /-- The reader of a side takes its turn. -/
  | read (s : Side)
  /-- The writer of a side takes its turn. -/
  | write (s : Side)
  /-- Whoever has closed the endpoint of a side closes its end. -/
  | shut (s : Side)
  /-- The end of a side is let go of. -/
  | release (s : Side)

/-- Whether a move does nothing at an endpoint that is not allowed. -/
def Move.Meets {η : Type} (ok : Op η → Prop) : Move η → Prop
  | op _ o => ok o
  | _ => True

theorem Move.meets_true {η : Type} (m : Move η) : m.Meets fun _ => True := by cases m <;> trivial

namespace Duo

variable {η : Type}

/-- The ticket of the reader of a side. -/
def readerTicket : Side → Ticket
  | .main => 1
  | .ext => 3

/-- The ticket of the writer of a side. -/
def writerTicket : Side → Ticket
  | .main => 2
  | .ext => 4

/-- The endpoint of a side with its surroundings. -/
def host (d : Duo η) (s : Side) : Host η := (d.desk s).host

/-- Endpoints that have just been opened on a new pair. -/
def ofConfigs (l : ChannelLimits) (c : Side → Config) : Duo η where
  pair := .ofLimits l
  desk s := { chronicle := .ofConfig (c s) }

/-- The duo with another pair and another desk of a side. -/
def put (d : Duo η) (s : Side) (p : Memory.Pair) (k : Desk η) : Duo η where
  pair := p
  desk s' := if s' = s then k else d.desk s'

@[simp] theorem pair_put (d : Duo η) (s : Side) (p : Memory.Pair) (k : Desk η) :
    (d.put s p k).pair = p := rfl

@[simp] theorem desk_put (d : Duo η) (s : Side) (p : Memory.Pair) (k : Desk η) :
    (d.put s p k).desk s = k := if_pos rfl

theorem desk_put_ne (d : Duo η) {s s' : Side} (h : s' ≠ s) (p : Memory.Pair) (k : Desk η) :
    (d.put s p k).desk s' = d.desk s' := if_neg h

/-- A side that is put back changes nothing. -/
theorem put_eq_self {d : Duo η} {s : Side} {p : Memory.Pair} {k : Desk η} (hp : p = d.pair)
    (hk : k = d.desk s) : d.put s p k = d := by
  subst hp hk
  have hdesk : (fun s' => if s' = s then d.desk s else d.desk s') = d.desk := by
    funext s'
    split
    · next h => rw [h]
    · rfl
  unfold put
  rw [hdesk]

variable [Handler η]

/-- Lets the reader of a side take its turn. -/
def read (d : Duo η) (s : Side) : Duo η :=
  let k := d.desk s
  match k.reading with
  | .receiving op =>
    if k.host.endpoint.isOpen then
      let r := Memory.recv s (readerTicket s) op d.pair
      match r.progress with
      | .pending op => d.put s r.state { k with reading := .receiving op }
      | .done (.ok frame) =>
        d.put s r.state
          { k with chronicle := k.chronicle.act (.receive frame), reading := .receiving .fresh }
      | .done (.error _) =>
        d.put s r.state { k with chronicle := k.chronicle.act (.op .close), reading := .hangingUp }
    else
      d.put s (Memory.abandonRecv s (readerTicket s) op d.pair).1 { k with reading := .hangingUp }
  | .hangingUp => d.put s d.pair.close.1 { k with reading := .ended }
  | .ended => d

/-- Lets the writer of a side take its turn. -/
def write (d : Duo η) (s : Side) : Duo η :=
  let k := d.desk s
  match k.writing with
  | .idle =>
    match k.host.endpoint.dequeue with
    | some (o, _) =>
      d.put s d.pair
        { k with chronicle := k.chronicle.act .take, writing := .sending (.fresh o.bytes) }
    | none =>
      if k.host.endpoint.isOpen then d else d.put s d.pair { k with writing := .ended }
  | .sending op =>
    let r := Memory.send s (writerTicket s) op d.pair
    match r.progress with
    | .pending op => d.put s r.state { k with writing := .sending op }
    | .done (.ok ()) =>
      d.put s r.state { k with chronicle := k.chronicle.act (.sent (.ok ())), writing := .idle }
    | .done (.error err) =>
      d.put s r.state
        { k with
          chronicle := k.chronicle.act (.sent (.error err)),
          writing := if err.isTerminal then .ended else .idle }
  | .ended => d

/-- Makes a move. -/
def move (d : Duo η) : Move η → Duo η
  | .op s o => d.put s d.pair { d.desk s with chronicle := (d.desk s).chronicle.act (.op o) }
  | .read s => d.read s
  | .write s => d.write s
  | .shut s => if (d.host s).endpoint.isOpen then d else { d with pair := d.pair.close.1 }
  | .release s =>
    match (d.desk s).reading, (d.desk s).writing with
    | .ended, .ended => { d with pair := (d.pair.drop s).1 }
    | _, _ => d

/-- Makes some moves. -/
def run (moves : List (Move η)) (d : Duo η) : Duo η := moves.foldl move d

/-- No loop can go on, and no handler has ended whose run goes on. -/
structure Quiet (d : Duo η) : Prop where
  read : ∀ s, d.read s = d
  write : ∀ s, d.write s = d
  reap : ∀ s, ∀ r ∈ (d.host s).endpoint.runs, (d.host s).ending? r = none

@[simp] theorem run_nil (d : Duo η) : d.run [] = d := rfl

theorem run_concat (moves : List (Move η)) (m : Move η) (d : Duo η) :
    d.run (moves ++ [m]) = (d.run moves).move m := by
  simp only [run, List.foldl_append, List.foldl_cons, List.foldl_nil]

/-! ## One turn -/

/-- An act leaves its mark. -/
theorem put_ne_self {d : Duo η} {s : Side} {p : Memory.Pair} {k : Desk η} {a : Act η}
    (hk : k.chronicle = (d.desk s).chronicle.act a) : d.put s p k ≠ d := by
  intro heq
  have hpast := congrArg (fun d => (d.desk s).chronicle.past.length) heq
  simp [hk] at hpast

section Turns

variable {d : Duo η} {s : Side}

theorem read_of_message {op : Memory.Receiving} {frame : Bytes}
    (hk : (d.desk s).reading = .receiving op) (hopen : (d.host s).endpoint.isOpen = true)
    (hr : (Memory.recv s (readerTicket s) op d.pair).progress = .done (.ok frame)) :
    d.read s = d.put s (Memory.recv s (readerTicket s) op d.pair).state
      { d.desk s with
        chronicle := (d.desk s).chronicle.act (.receive frame), reading := .receiving .fresh } := by
  have hopen' : (d.desk s).host.endpoint.isOpen = true := hopen
  simp only [read, hk, hopen', if_true, hr]

theorem read_of_error {op : Memory.Receiving} {err : TransportError}
    (hk : (d.desk s).reading = .receiving op) (hopen : (d.host s).endpoint.isOpen = true)
    (hr : (Memory.recv s (readerTicket s) op d.pair).progress = .done (.error err)) :
    d.read s = d.put s (Memory.recv s (readerTicket s) op d.pair).state
      { d.desk s with
        chronicle := (d.desk s).chronicle.act (.op .close), reading := .hangingUp } := by
  have hopen' : (d.desk s).host.endpoint.isOpen = true := hopen
  simp only [read, hk, hopen', if_true, hr]

theorem read_of_pending {op op' : Memory.Receiving} (hk : (d.desk s).reading = .receiving op)
    (hopen : (d.host s).endpoint.isOpen = true)
    (hr : (Memory.recv s (readerTicket s) op d.pair).progress = .pending op') :
    d.read s = d.put s (Memory.recv s (readerTicket s) op d.pair).state
      { d.desk s with reading := .receiving op' } := by
  have hopen' : (d.desk s).host.endpoint.isOpen = true := hopen
  simp only [read, hk, hopen', if_true, hr]

/-- A reader that waits and is not told of anything stays as it is. -/
theorem read_eq_self {op : Memory.Receiving} (hk : (d.desk s).reading = .receiving op)
    (hopen : (d.host s).endpoint.isOpen = true)
    (hr : Memory.recv s (readerTicket s) op d.pair = .pending d.pair op []) : d.read s = d := by
  have hprogress : (Memory.recv s (readerTicket s) op d.pair).progress = .pending op :=
    congrArg Try.progress hr
  rw [read_of_pending hk hopen hprogress]
  refine put_eq_self (congrArg Try.state hr) ?_
  rw [← hk]

theorem read_of_closed {op : Memory.Receiving} (hk : (d.desk s).reading = .receiving op)
    (hclosed : (d.host s).endpoint.isOpen = false) :
    d.read s = d.put s (Memory.abandonRecv s (readerTicket s) op d.pair).1
      { d.desk s with reading := .hangingUp } := by
  have hclosed' : (d.desk s).host.endpoint.isOpen = false := hclosed
  simp only [read, hk, hclosed', Bool.false_eq_true, if_false]

theorem read_of_hangingUp (hk : (d.desk s).reading = .hangingUp) :
    d.read s = d.put s d.pair.close.1 { d.desk s with reading := .ended } := by
  simp only [read, hk]

theorem read_of_ended (hk : (d.desk s).reading = .ended) : d.read s = d := by
  simp only [read, hk]

theorem write_of_first {o : Outbound} {rest : List Outbound} (hk : (d.desk s).writing = .idle)
    (hopen : (d.host s).endpoint.isOpen = true)
    (hfirst : (d.host s).endpoint.outbound = o :: rest) :
    d.write s = d.put s d.pair
      { d.desk s with
        chronicle := (d.desk s).chronicle.act .take, writing := .sending (.fresh o.bytes) } := by
  have hopen' : (d.desk s).host.endpoint.isOpen = true := hopen
  have hfirst' : (d.desk s).host.endpoint.outbound = o :: rest := hfirst
  simp only [write, hk, Endpoint.dequeue, hopen', hfirst']

theorem write_of_none (hk : (d.desk s).writing = .idle)
    (hopen : (d.host s).endpoint.isOpen = true) (hnone : (d.host s).endpoint.outbound = []) :
    d.write s = d := by
  have hopen' : (d.desk s).host.endpoint.isOpen = true := hopen
  have hnone' : (d.desk s).host.endpoint.outbound = [] := hnone
  simp only [write, hk, Endpoint.dequeue, hopen', hnone', if_true]

theorem write_of_closed (hk : (d.desk s).writing = .idle)
    (hclosed : (d.host s).endpoint.isOpen = false) :
    d.write s = d.put s d.pair { d.desk s with writing := .ended } := by
  have hclosed' : (d.desk s).host.endpoint.isOpen = false := hclosed
  simp only [write, hk, Endpoint.dequeue, hclosed', Bool.false_eq_true, if_false]

theorem write_of_pending {op op' : Memory.Sending} (hk : (d.desk s).writing = .sending op)
    (hr : (Memory.send s (writerTicket s) op d.pair).progress = .pending op') :
    d.write s = d.put s (Memory.send s (writerTicket s) op d.pair).state
      { d.desk s with writing := .sending op' } := by
  simp only [write, hk, hr]

theorem write_of_sent {op : Memory.Sending} (hk : (d.desk s).writing = .sending op)
    (hr : (Memory.send s (writerTicket s) op d.pair).progress = .done (.ok ())) :
    d.write s = d.put s (Memory.send s (writerTicket s) op d.pair).state
      { d.desk s with
        chronicle := (d.desk s).chronicle.act (.sent (.ok ())), writing := .idle } := by
  simp only [write, hk, hr]

theorem write_of_error {op : Memory.Sending} {err : TransportError}
    (hk : (d.desk s).writing = .sending op)
    (hr : (Memory.send s (writerTicket s) op d.pair).progress = .done (.error err)) :
    d.write s = d.put s (Memory.send s (writerTicket s) op d.pair).state
      { d.desk s with
        chronicle := (d.desk s).chronicle.act (.sent (.error err)),
        writing := if err.isTerminal then .ended else .idle } := by
  simp only [write, hk, hr]

theorem write_of_ended (hk : (d.desk s).writing = .ended) : d.write s = d := by
  simp only [write, hk]

end Turns

end Duo

end PeerRpc
