import PeerRpc.Session.Tasks

/-!
# PeerRpc.Session.Control -- what the users of a session do

Users host services, take and give back handles and proxies, make calls under labels, and start
tasks that close an endpoint or wait for its end. Each operation takes effect at once; what it sets
going is done when tasks take turns.
-/

namespace PeerRpc

namespace Session

/-! ## Services -/

/-- The services that a side hosts. -/
def registry (w : Session) (s : Side) : Registry Service :=
  ((w.party? s).map (·.endpoint.registry)).getD {}

/-- Hosts a service on a side, and hands back the one it replaces. -/
def set (s : Side) (i : Identifier) (service : Service) (w : Session) :
    Except CallError (Session × Option Service) :=
  match w.party? s with
  | none => .ok (w, none)
  | some p => (p.endpoint.set i service).map fun (e, old) => (w.setEndpoint s e, old)

/-- Hosts a service no longer, and hands it back. -/
def unset (s : Side) (i : Identifier) (w : Session) : Session × Option Service :=
  match w.party? s with
  | none => (w, none)
  | some p =>
    let (e, old) := p.endpoint.unset i
    (w.setEndpoint s e, old)

/-- The diagnostic text of the endpoint of a side. -/
def debug (w : Session) (s : Side) : String :=
  ((w.party? s).map fun p => p.endpoint.debug (w.link.debug s "ID")).getD ""

/-! ## Handles and proxies -/

/-- Takes another handle of a side. -/
def cloneHandle (s : Side) (w : Session) : Session :=
  w.modifyParty s fun p => { p with handles := p.handles + 1 }

/-- Gives back a handle of a side. -/
def dropHandle (s : Side) (w : Session) : Session :=
  (w.modifyParty s fun p => { p with handles := p.handles - 1 }).release s

/-- The proxy with this name: the side that holds it and the service it stands for. -/
def proxy? (w : Session) (name : String) : Option (Side × Identifier) := Keyed.get? w.proxies name

/-- Gives a name to a proxy; the one that had the name is given back. -/
def putProxy (name : String) (proxy : Side × Identifier) (w : Session) : Session :=
  let w := { w with proxies := Keyed.insert name proxy w.proxies }
  (release .main w).release .ext

/-- Takes a proxy for a service of the other side. -/
def takeProxy (name : String) (s : Side) (i : Identifier) (w : Session) :
    Except CallError Session :=
  match w.party? s with
  | none => .ok w
  | some p => (p.endpoint.proxyFor i).map fun _ => w.putProxy name (s, i)

/-- Takes another proxy for the service of a proxy. -/
def cloneProxy (source name : String) (w : Session) : Session :=
  match w.proxy? source with
  | none => w
  | some proxy => w.putProxy name proxy

/-- Gives back a proxy. -/
def dropProxy (name : String) (w : Session) : Session :=
  let w := { w with proxies := w.proxies.filter fun p => p.1 ≠ name }
  (release .main w).release .ext

/-! ## Calls -/

/-- Where a call goes. -/
inductive Target where
  /-- The service that a proxy of a side stands for. -/
  | proxy (s : Side) (i : Identifier)
  /-- An identified service, from a side. -/
  | service (s : Side) (i : Identifier)

/-- The side that a call comes from. -/
def Target.side : Target → Side
  | proxy s _ => s
  | service s _ => s

/-- The place of the call that was made last under a label. -/
def callerIndex? (w : Session) (label : String) : Option Nat :=
  (w.callers.zipIdx.filter fun c => c.1.label = label).getLast?.map Prod.snd

/-- The call that was made last under a label, with its place. -/
def caller? (w : Session) (label : String) : Option (Nat × Caller) :=
  (w.callerIndex? label).bind fun i => (w.callers[i]?).map fun c => (i, c)

/-- Starts a task that waits for a call. -/
def spawnAwait (i : Nat) (s : Side) (w : Session) : Session :=
  ({ w with callers := w.callers.modify i fun c => { c with held := false } } : Session).spawn s
    (.awaitCall i false) false

/-- Lets go of a call that nobody waits for. -/
def dropHeld (i : Nat) (c : Caller) (w : Session) : Session :=
  if c.held then (w.setCall i c.call false).dropCall c.side c.call else w

/-- Makes a call under a label, and waits for it or holds it. Says what id it has. -/
def call (target : Target) (label : String) (shape : Shape) (hold : Bool) (method : String)
    (args : List Value) (w : Session) : Session × Option RequestId :=
  let (w, call) := match target with
    | .proxy s i => w.request s i.id method args
    | .service s i => w.invoke s i method args
  let former := w.caller? label
  let i := w.callers.length
  let w := { w with callers := w.callers ++ [⟨label, target.side, call, shape, true⟩] }
  let w := if hold then w else w.spawnAwait i target.side
  (match former with
    | some (j, c) => w.dropHeld j c
    | none => w, call.id)

/-- Sends a notification. -/
def notify (target : Target) (method : String) (args : List Value) (w : Session) :
    Except CallError Session :=
  match w.party? target.side with
  | none => .error .disconnected
  | some p =>
    let step := match target with
      | .proxy _ i => p.endpoint.notifyProxy i.id method args
      | .service _ i => p.endpoint.notify i method args
    step.map fun step => w.take target.side step

/-- Waits for a call that is held. -/
def await (label : String) (w : Session) : Session :=
  match w.caller? label with
  | some (i, c) => if c.held then w.spawnAwait i c.side else w
  | none => w

/-- Cancels a call. Says whether it was still waiting. -/
def cancel (label : String) (w : Session) : Session × Option Bool :=
  match w.caller? label with
  | none => (w, none)
  | some (_, c) =>
    match w.party? c.side with
    | none => (w, some false)
    | some p =>
      let (waited, step) := c.call.cancel p.endpoint
      (w.take c.side step, some waited)

/-- Lets go of a call: at once if it is held, otherwise when the task that waits for it takes its
turn. -/
def dropCaller (label : String) (w : Session) : Session :=
  match w.caller? label with
  | none => w
  | some (i, c) =>
    if c.held then w.dropHeld i c
    else
      let waiting := w.tasks.filter fun (_, task) => match task.work with
        | .awaitCall j _ => j = i
        | _ => false
      waiting.foldl (fun w (t, _) => wake [t] (w.setWork t (.awaitCall i true))) w

/-! ## The end of an endpoint -/

/-- Starts closing the endpoint of a side. -/
def startClose (s : Side) (w : Session) : Session := w.spawn s (.close .fresh) true

/-- Starts waiting until the endpoint of a side is closed. -/
def startAwaitClosed (s : Side) (w : Session) : Session := w.spawn s .awaitClosed true

/-- Starts waiting until the endpoint of a side is closed and nothing of its own goes on. -/
def startAwaitEnd (s : Side) (w : Session) : Session := w.spawn s .awaitEnd true

/-! ## The record -/

/-- Begins a new record of what tasks do. -/
def newRecord (w : Session) : Session := { w with log := [], ended := [] }

/-- The lines of the record in order. -/
def logLines (w : Session) : List String := w.log.mergeSort fun a b => a ≤ b

end Session

end PeerRpc
