import PeerRpc.Session.Events

/-!
# PeerRpc.Session.Handling -- runs of handlers

`Session.perform` answers what an activity asks for until it has to wait or ends; `Session.resume`
looks whether a run may go on from where it waits. A run that is aborted gives back what it waits
for: its place at a gate, the call it has made, and its handle.

Calls are made here too, since a handler may make them: `Session.request` and `Session.invoke`.
-/

namespace PeerRpc

namespace Session

/-! ## Calls -/

/-- Makes a call of a service of the other side from a side. -/
def request (s : Side) (proxy : ProxyId) (method : String) (args : List Value) (w : Session) :
    Session × Call :=
  match w.party? s with
  | none => (w, .failed .disconnected)
  | some p =>
    let (id, step) := p.endpoint.request proxy method args
    let call : Call :=
      { id := some id, limit := p.endpoint.config.requestTimeout, started := w.now }
    (w.take s step, step.2.foldl Call.hear call)

/-- Makes a call of an identified service from a side. -/
def invoke (s : Side) (i : Identifier) (method : String) (args : List Value) (w : Session) :
    Session × Call :=
  match w.party? s with
  | none => (w, .failed .disconnected)
  | some p =>
    match p.endpoint.proxyFor i with
    | .error err => (w, .failed err)
    | .ok proxy => w.request s proxy method args

/-- Looks for the result of a call that was made from a side. -/
def pollCall (s : Side) (call : Call) (w : Session) : Session × Call × Option CallResult :=
  match w.party? s with
  | none => (w, call, none)
  | some p =>
    let (r, call, step) := call.poll w.now p.endpoint
    (w.take s step, call, r)

/-- Lets go of a call that was made from a side. -/
def dropCall (s : Side) (call : Call) (w : Session) : Session := w.atEndpoint s call.drop

/-! ## Gates -/

/-- The permits of a gate. -/
def permits (w : Session) (name : String) : Permits := (Keyed.get? w.gates name).getD {}

/-- The session with other permits for a gate. -/
def setPermits (name : String) (p : Permits) (w : Session) : Session :=
  { w with gates := Keyed.insert name p w.gates }

/-- Adds a permit to a gate. -/
def openGate (name : String) (w : Session) : Session :=
  let (p, wakes) := (w.permits name).add
  wake wakes (w.setPermits name p)

/-! ## Activities -/

/-- What a run has come to: it waits, or it has ended. -/
abbrev Came := Sum Pause Outcome

/-- Lets the run with this serial number, the task `t` of a side, go on until it waits or ends. -/
def perform (t : Ticket) (s : Side) (serial : Nat) : Activity → Session → Session × Came
  | .finish (.ok v), w => (w, .inr (.value v))
  | .finish (.error e), w => (w, .inr (.failed e))
  | .panic message, w => (w, .inr (.panicked message))
  | .log line next, w => perform t s serial next (w.writeLog line)
  | .askStopped next, w => perform t s serial (next (w.isStopped s serial)) w
  | .untilStopped next, w =>
    if w.isStopped s serial then perform t s serial next w else (w, .inl (.untilStopped next))
  | .forever, w => (w, .inl .forever)
  | .sleep ms next, w =>
    if ms = 0 then perform t s serial next w else (w, .inl (.sleeping (w.now + ms) next))
  | .gate name next, w =>
    match (w.permits name).take t with
    | (p, true) => perform t s serial next (w.setPermits name p)
    | (p, false) => (w.setPermits name p, .inl (.gate name next))
  | .takeHandle next, w =>
    if 0 < w.handles s then
      perform t s serial (next true) (w.modifyTask t fun task => { task with holds := true })
    else perform t s serial (next false) w
  | .call target method args next, w =>
    let (w, call) := w.invoke s target method args
    match w.pollCall s call with
    | (w, _, some r) => perform t s serial (next r) w
    | (w, call, none) => (w, .inl (.reply call next))

/-- Looks whether a run may go on, and lets it. -/
def resume (t : Ticket) (s : Side) (serial : Nat) (pause : Pause) (w : Session) : Session × Came :=
  match pause with
  | .fresh a => perform t s serial a w
  | .untilStopped next => perform t s serial (.untilStopped next) w
  | .forever => (w, .inl .forever)
  | .sleeping wakeAt next =>
    if wakeAt ≤ w.now then perform t s serial next w else (w, .inl pause)
  | .gate name next => perform t s serial (.gate name next) w
  | .reply call next =>
    match w.pollCall s call with
    | (w, _, some r) => perform t s serial (next r) w
    | (w, call, none) => (w, .inl (.reply call next))

/-- Gives back what a run waits for. -/
def abandon (t : Ticket) (s : Side) (pause : Pause) (w : Session) : Session :=
  match pause with
  | .gate name _ =>
    let (p, wakes) := (w.permits name).leave t
    wake wakes (w.setPermits name p)
  | .reply call _ => w.dropCall s call
  | _ => w

/-- Ends a run: its handle is given back first, then its request is answered. -/
def endRun (t : Ticket) (s : Side) (serial : Nat) (o : Outcome) (w : Session) : Session :=
  let w := release s (w.modifyTask t fun task => { task with holds := false })
  (w.atEndpoint s fun e => e.finish serial o).endTask t s

/-- Lets a run take its turn. A run that may be aborted gets to see that it is told to stop before
it is. -/
def handleTurn (t : Ticket) (s : Side) (run : Run Service) (pause : Pause) (w : Session) :
    Session :=
  match w.resume t s run.serial pause with
  | (w, .inr outcome) => w.endRun t s run.serial outcome
  | (w, .inl pause) =>
    if run.abortable && w.isStopped s run.serial then
      (w.abandon t s pause).endRun t s run.serial .aborted
    else w.setWork t (.handle run pause)

end Session

end PeerRpc
