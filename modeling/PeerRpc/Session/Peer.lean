import PeerRpc.Session.Tasks

/-!
# PeerRpc.Session.Peer -- the other side of an endpoint without an endpoint

Where only one side of a link has an endpoint, the other side is a peer outside the session, which
sends and receives messages or octets of its own. A peer does not wait: what cannot be done at once
is not done.

Operations name the side of the endpoint, not that of the peer.
-/

namespace PeerRpc

namespace Session

/-- The ticket of the peer, which never waits. -/
def peer : Ticket := 0

/-- What came of something that a peer sent. -/
inductive PeerSent where
  /-- The channel has taken the message. -/
  | accepted
  | failed (e : TransportError)
  /-- There is no room. -/
  | blocked
  /-- A pipe was found so. -/
  | room (r : Pipe.Room)

/-- Sends octets to the endpoint of a side through its pipe. -/
def peerWrite (s : Side) (bs : Bytes) (w : Session) : Session × PeerSent :=
  let (link, wakes, room) := w.link.pipeWrite s peer bs
  (w.setLink link wakes, .room room)

/-- Puts something into the script of an endpoint, whether or not anyone is left to receive it. -/
def peerPut (item : Except TransportError Bytes) (w : Session) : Session × PeerSent :=
  match w.link with
  | .scripted s c =>
    let (c, wakes) := c.put item
    (w.setLink (.scripted s c) wakes, .accepted)
  | _ => (w, .failed .closed)

/-- Sends a message to the endpoint of a side. -/
def peerSend (s : Side) (msg : Bytes) (w : Session) : Session × PeerSent :=
  match w.link with
  | .scripted .. => w.peerPut (.ok msg)
  | .bare .. => w.peerWrite s (Frame.message msg).toBytes
  | _ =>
    let r := w.link.send s.opposite peer (.fresh msg)
    let w := w.setLink r.state r.wakes
    match r.progress with
    | .done (.ok ()) => (w, .accepted)
    | .done (.error e) => (w, .failed e)
    | .pending _ =>
      let (link, wakes) := w.link.abandonSend s.opposite peer
      (w.setLink link wakes, .blocked)

/-- Receives a message from the endpoint of a side, if there is one. -/
def peerRecv (s : Side) (w : Session) : Session × Option (Except TransportError Bytes) :=
  let r := w.link.recv s.opposite peer .fresh
  let w := w.setLink r.state r.wakes
  match r.progress with
  | .done x => (w, some x)
  | .pending op =>
    let (link, wakes) := w.link.abandonRecv s.opposite peer op
    (w.setLink link wakes, none)

/-- What a peer finds when it looks for more. -/
inductive PeerFound where
  /-- A message, or a part of a stream. -/
  | piece (bs : Bytes)
  /-- The stream has ended. -/
  | finished
  | nothing

/-- Looks for a message from the endpoint of a side or a part of its stream. -/
def peerNext (s : Side) (w : Session) : Session × PeerFound :=
  match w.link with
  | .bare .. =>
    let (link, wakes, found) := w.link.pipeRead s peer
    (w.setLink link wakes, match found with
      | .octets bs => .piece bs
      | .finished => .finished
      | .nothing => .nothing)
  | _ =>
    match w.peerRecv s with
    | (w, some (.ok msg)) => (w, .piece msg)
    | (w, _) => (w, .nothing)

/-- Receives all that arrives from the endpoint of a side, while tasks go on in between, at most
`fuel` pieces. Says whether the stream has ended. -/
def peerDrain (s : Side) : (fuel : Nat) → List Bytes → Session → Session × List Bytes × Bool
  | 0, acc, w => (w, acc.reverse, false)
  | fuel + 1, acc, w =>
    match w.peerNext s with
    | (w, .piece bs) => peerDrain s fuel (bs :: acc) w.settle
    | (w, .finished) => (w, acc.reverse, true)
    | (w, .nothing) => (w, acc.reverse, false)

/-- Receives all that the endpoint of a side has sent. A script is read as it is; of other links all
that arrives is received. Says whether the stream has ended. -/
def peerCollect (s : Side) (w : Session) : Session × List Bytes × Bool :=
  match w.link with
  | .scripted s' c => ({ w with link := .scripted s' { c with sent := [] } }, c.sent.reverse, false)
  | _ => w.peerDrain s Schedule.patience []

/-- The peer closes the channel to the endpoint of a side. -/
def peerClose (s : Side) (w : Session) : Session :=
  let r := w.link.close w.now s.opposite peer .fresh
  w.setLink r.state r.wakes

/-- The peer goes. -/
def peerDrop (s : Side) (w : Session) : Session :=
  match w.link with
  | .scripted s' c =>
    let (c, wakes) := c.finish
    w.setLink (.scripted s' c) wakes
  | .bare .. =>
    let (link, wakes) := w.link.pipeDrop s
    w.setLink link wakes
  | _ =>
    let (link, wakes) := w.link.drop s.opposite
    w.setLink link wakes

/-- Lets the next send to a script fail. -/
def failSend (e : TransportError) (w : Session) : Session :=
  match w.link with
  | .scripted s c => { w with link := .scripted s { c with sendErrors := c.sendErrors ++ [e] } }
  | _ => w

/-- Lets the next close of a script fail. -/
def failClose (e : TransportError) (w : Session) : Session :=
  match w.link with
  | .scripted s c => { w with link := .scripted s { c with closeError := some e } }
  | _ => w

end Session

end PeerRpc
