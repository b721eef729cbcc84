import PeerRpc.Bytes
import PeerRpc.Sync

/-!
# PeerRpc.Channel.Pipe -- a bounded byte stream

A pipe carries octets in order and loses none. It holds at most `capacity` of them: a writer may
find room for a part only, or for none, and then waits. Either end may cut the pipe. What is in a
pipe that was cut is still read and then the reader finds the end; a writer finds it broken.

At most one task waits at each end: the last one that found nothing to do.
-/

namespace PeerRpc

/-- A byte stream in one direction. -/
structure Pipe where
  capacity : Nat
  content : Bytes := []
  cut : Bool := false
  /-- Who waits for octets. -/
  reader : Option Ticket := none
  /-- Who waits for room. -/
  writer : Option Ticket := none
  deriving Inhabited

namespace Pipe

/-- What a reader finds. -/
inductive Found where
  | octets (bs : Bytes)
  | finished
  | nothing

/-- Reads all there is, or waits. -/
def read (p : Pipe) (t : Ticket) : Pipe × List Ticket × Found :=
  if p.content.isEmpty then
    if p.cut then (p, [], .finished) else ({ p with reader := some t }, [], .nothing)
  else ({ p with content := [], writer := none }, p.writer.toList, .octets p.content)

/-- What a writer finds. -/
inductive Room where
  /-- Room for this many octets, which have been written. -/
  | written (n : Nat)
  | full
  | broken

/-- Writes as much as there is room for, or waits. -/
def write (p : Pipe) (t : Ticket) (bs : Bytes) : Pipe × List Ticket × Room :=
  if p.cut then (p, [], .broken)
  else
    let free := p.capacity - p.content.length
    if free = 0 then ({ p with writer := some t }, [], .full)
    else
      let part := bs.take free
      ({ p with content := p.content ++ part, reader := none }, p.reader.toList,
        .written part.length)

/-- The writer ends the stream. -/
def closeWrite (p : Pipe) : Pipe × List Ticket :=
  ({ p with cut := true, reader := none }, p.reader.toList)

/-- The reader goes. -/
def closeRead (p : Pipe) : Pipe × List Ticket :=
  ({ p with cut := true, writer := none }, p.writer.toList)

end Pipe

end PeerRpc
