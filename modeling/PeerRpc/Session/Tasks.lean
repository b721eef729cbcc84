import PeerRpc.Session.Handling

/-!
# PeerRpc.Session.Tasks -- how tasks take turns

The reader of an endpoint receives a message and acts on it, as long as there is one, and closes the
channel once the endpoint is closed or nothing more can be received. The writer sends what waits to
be sent; a channel that breaks closes the endpoint, and a message that is merely refused is given
back to it.

`Session.schedule` lets these, the runs of handlers and those who wait take turns.
-/

namespace PeerRpc

namespace Session

/-- The label of a task that waits for the endpoint of a side. -/
def labelFor (what : String) (s : Side) : String := what ++ ":" ++ s.name

/-! ## The loops of an endpoint -/

/-- Tries to close the channel of a side. Says whether it is closed. -/
def closeChannel (t : Ticket) (s : Side) (op : Link.Closing) (w : Session) :
    Session × Option Link.Closing :=
  let w := match w.link with
    | .scripted .. => w.writeLog "channel close"
    | _ => w
  let r := w.link.close w.now s t op
  (w.setLink r.state r.wakes, match r.progress with
    | .pending op => some op
    | .done () => none)

/-- Lets a reader close the channel. -/
def hangUpTurn (t : Ticket) (s : Side) (op : Link.Closing) (w : Session) : Session :=
  match w.closeChannel t s op with
  | (w, some op) => w.setWork t (.hangUp op)
  | (w, none) => w.endTask t s

/-- Lets a reader receive a message. -/
def readTurn (t : Ticket) (s : Side) (op : Link.Receiving) (w : Session) : Session :=
  if w.isOpen s then
    let r := w.link.recv s t op
    let w := w.setLink r.state r.wakes
    match r.progress with
    | .pending op => w.setWork t (.read op)
    | .done (.ok frame) =>
      ((w.setWork t (.read .fresh)).atEndpoint s fun e => e.receive frame).again t
    | .done (.error _) => (w.atEndpoint s Endpoint.close).hangUpTurn t s .fresh
  else
    let (link, wakes) := w.link.abandonRecv s t op
    (w.setLink link wakes).hangUpTurn t s .fresh

/-- Lets a writer send a message. -/
def sendTurn (t : Ticket) (s : Side) (o : Outbound) (op : Link.Sending) (w : Session) : Session :=
  let r := w.link.send s t op
  let w := w.setLink r.state r.wakes
  match r.progress with
  | .pending op => w.setWork t (.write (some (o, op)))
  | .done (.ok ()) => (w.setWork t (.write none)).again t
  | .done (.error err) =>
    if err.isTerminal then (w.atEndpoint s Endpoint.close).endTask t s
    else ((w.setWork t (.write none)).atEndpoint s fun e => e.undeliverable o err).again t

/-- Lets a writer look for a message. -/
def writeTurn (t : Ticket) (s : Side) (w : Session) : Session :=
  match w.party? s with
  | none => w.endTask t s
  | some p =>
    match p.endpoint.dequeue with
    | some (o, e) => (w.setEndpoint s e).sendTurn t s o (.fresh o.bytes)
    | none => if p.endpoint.isOpen then w else w.endTask t s

/-! ## Those who wait -/

/-- Ends a task under a label. -/
def endLabelled (t : Ticket) (s : Side) (label : String) (e : Ending) (w : Session) : Session :=
  (w.noteEnding label e).endTask t s

/-- Closes an endpoint and its channel. -/
def closeTurn (t : Ticket) (s : Side) (op : Link.Closing) (w : Session) : Session :=
  match (w.atEndpoint s Endpoint.close).closeChannel t s op with
  | (w, some op) => w.setWork t (.close op)
  | (w, none) => w.endLabelled t s (labelFor "close" s) .done

/-- Ends if the endpoint is closed. -/
def awaitClosedTurn (t : Ticket) (s : Side) (w : Session) : Session :=
  if w.isOpen s then w else w.endLabelled t s (labelFor "closed" s) .done

/-- Ends if the endpoint is closed and nothing of its own goes on. -/
def awaitEndTurn (t : Ticket) (s : Side) (w : Session) : Session :=
  if w.isOpen s || (w.tasksOf s).any (·.work.isInternal) then w
  else w.endLabelled t s (labelFor "wait" s) .done

/-- The session with another state of a call under a label. -/
def setCall (i : Nat) (call : Call) (held : Bool) (w : Session) : Session :=
  { w with callers := w.callers.modify i fun c => { c with call := call, held := held } }

/-- What a caller makes of the result of a call. -/
def Caller.read (c : Caller) (r : CallResult) : CallResult :=
  (r.bind (result c.shape)).map c.shape.toValue

/-- Waits for a call under a label, unless it is dropped. -/
def awaitCallTurn (t : Ticket) (s : Side) (i : Nat) (dropped : Bool) (w : Session) : Session :=
  match w.callers[i]? with
  | none => w.endTask t s
  | some c =>
    if dropped then (w.dropCall s c.call).endTask t s
    else
      match w.pollCall s c.call with
      | (w, call, some r) => (w.setCall i call false).endLabelled t s c.label (.call (c.read r))
      | (w, call, none) => w.setCall i call false

/-! ## The schedule -/

/-- Lets a task take its turn. -/
def turn (t : Ticket) (w : Session) : Session :=
  match w.tasks.find? fun x => x.1 = t with
  | none => w
  | some (_, task) =>
    match task.work with
    | .read op => w.readTurn t task.side op
    | .hangUp op => w.hangUpTurn t task.side op
    | .write none => w.writeTurn t task.side
    | .write (some (o, op)) => w.sendTurn t task.side o op
    | .handle run pause => w.handleTurn t task.side run pause
    | .close op => w.closeTurn t task.side op
    | .awaitClosed => w.awaitClosedTurn t task.side
    | .awaitEnd => w.awaitEndTurn t task.side
    | .awaitCall i dropped => w.awaitCallTurn t task.side i dropped

/-- When a task wants to be woken. -/
def Work.deadline? (w : Session) : Work → Option Nat
  | hangUp op => op.deadline?
  | close op => op.deadline?
  | handle _ (.sleeping wakeAt _) => some wakeAt
  | handle _ (.reply call _) => call.deadline?
  | awaitCall i _ => (w.callers[i]?).bind fun c => c.call.deadline?
  | _ => none

/-- How the tasks of a session take turns. -/
def schedule : Schedule Session where
  ready w := w.ready
  setReady w r := { w with ready := r }
  turn := turn
  now w := w.now
  setNow w n := { w with now := n }
  deadlines w := w.tasks.filterMap fun (t, task) => (task.work.deadline? w).map fun d => (d, t)

/-- Lets all tasks go on until none can. -/
def settle (w : Session) : Session := schedule.settle w

/-- Moves the clock forward, after all tasks have gone on as far as they can. -/
def advance (ms : Nat) (w : Session) : Session := schedule.advance ms w.settle

end Session

end PeerRpc
