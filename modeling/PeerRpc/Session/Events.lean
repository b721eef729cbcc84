import PeerRpc.Session.Basic

/-!
# PeerRpc.Session.Events -- who learns of what happens at an endpoint

Every step of an endpoint goes through `Session.take`, which hands its events on in order: a call
that is settled wakes whoever waits for it, a message wakes the writer, a run that begins becomes a
task. An event wakes only those tasks that wait for it, so that the order of turns is the order of
events.

Once nobody holds an endpoint any more it closes, and once its loops and its answers have ended too
its end of the link is let go of (`Session.release`).
-/

namespace PeerRpc

namespace Session

/-! ## Events -/

/-- Whether a call of a side has this id. -/
def Caller.isFor (c : Caller) (s : Side) (id : RequestId) : Bool :=
  c.side = s && c.call.id = some id

/-- A call under a label after an event at the endpoint of a side. -/
def Caller.hear (s : Side) (e : Event Service) (c : Caller) : Caller :=
  if c.side = s then { c with call := c.call.hear e } else c

/-- A task after an event at the endpoint of a side: the run of a handler that waits for a call of
that side takes note of it. -/
def Task.hear (s : Side) (e : Event Service) (task : Task) : Task :=
  match task.work with
  | .handle run (.reply call next) =>
    if task.side = s then { task with work := .handle run (.reply (call.hear e) next) } else task
  | _ => task

/-- Whether a task waits for the call with this id, made by the side of the task. -/
def Work.waitsFor (w : Session) (s : Side) (id : RequestId) : Work → Bool
  | handle _ (.reply call _) => call.id = some id
  | awaitCall i _ => (w.callers[i]?).any fun c => c.isFor s id
  | _ => false

/-- Whether a task is to know that a run has been told to stop. -/
def Work.heedsStop (serial : Nat) : Work → Bool
  | handle run pause => run.serial = serial && (run.abortable || match pause with
    | .untilStopped _ => true
    | _ => false)
  | _ => false

/-- Whether a task waits for the endpoint to close. -/
def Work.awaitsClosing : Work → Bool
  | awaitClosed => true
  | awaitEnd => true
  | _ => false

/-- Whether a task is a writer that has nothing to send. -/
def Work.isIdleWriter : Work → Bool
  | write none => true
  | _ => false

/-- Whether a task is a loop that stops when the endpoint closes. -/
def Work.heedsHalt : Work → Bool
  | read _ => true
  | work => work.isIdleWriter

/-- Lets everyone know of an event at the endpoint of a side. -/
def hear (s : Side) (w : Session) (e : Event Service) : Session :=
  match e with
  | .settled id _ =>
    let w : Session := { w with
      callers := w.callers.map (·.hear s e),
      tasks := w.tasks.map fun (t, task) => (t, task.hear s e) }
    w.wakeWhere s fun work => work.waitsFor w s id
  | .queued _ => w.wakeWhere s Work.isIdleWriter
  | .started run =>
    w.spawn s (.handle run (.fresh (run.handler.run ⟨run.request, run.proxy, run.method⟩ run.args)))
      false
  | .fired serial => w.wakeWhere s (Work.heedsStop serial)
  | .closed => w.wakeWhere s Work.awaitsClosing
  | .halted => w.wakeWhere s Work.heedsHalt

/-- The session after a step of the endpoint of a side. -/
def take (s : Side) (step : Endpoint.Step Service) (w : Session) : Session :=
  step.2.foldl (hear s) (w.setEndpoint s step.1)

/-- Lets the endpoint of a side take a step. -/
def atEndpoint (s : Side) (f : Endpoint Service → Endpoint.Step Service) (w : Session) : Session :=
  match w.party? s with
  | none => w
  | some p => w.take s (f p.endpoint)

/-! ## Who holds an endpoint -/

/-- The tasks of a side. -/
def tasksOf (w : Session) (s : Side) : List Task :=
  (w.tasks.map Prod.snd).filter fun task => task.side = s

/-- Whether anyone holds the endpoint of a side. -/
def isHeld (w : Session) (s : Side) : Bool :=
  0 < w.handles s || w.proxies.any (fun p => p.2.1 = s) || (w.tasksOf s).any (·.holds)

/-- Closes an endpoint that nobody holds, and lets go of its end of the link once nothing uses
that any more. -/
def release (s : Side) (w : Session) : Session :=
  if w.isHeld s then w
  else
    let w := w.atEndpoint s Endpoint.close
    match w.party? s with
    | none => w
    | some p =>
      if p.released || (w.tasksOf s).any (·.work.keepsChannel) then w
      else
        let (link, wakes) := w.link.drop s
        (w.modifyParty s fun p => { p with released := true }).setLink link wakes

/-- Ends a task. Whoever waits for the end of the endpoint learns that its last task has ended. -/
def endTask (t : Ticket) (s : Side) (w : Session) : Session :=
  let w := release s { w with tasks := w.tasks.filter fun x => x.1 ≠ t }
  if (w.tasksOf s).any (·.work.isInternal) then w
  else w.wakeWhere s fun work => match work with
    | .awaitEnd => true
    | _ => false

/-! ## The start -/

/-- Opens an endpoint on a side. -/
def openSide (c : Config) (w : Session) : Session :=
  let p : Party := { endpoint := .ofConfig c }
  let w := match c.side with
    | .main => { w with main := some p }
    | .ext => { w with ext := some p }
  (w.spawn c.side (.read .fresh) false).spawn c.side (.write none) false

/-- A session on a link with endpoints that have just been opened. -/
def ofLink (link : Link) (configs : List Config) : Session :=
  configs.foldl (fun w c => w.openSide c) { link := link }

end Session

end PeerRpc
