import PeerRpc.Identifier
import PeerRpc.Value

/-!
# PeerRpc.Message -- what travels over a channel

There are five kinds of messages. A request asks a service to run a method and expects one reply;
a notification expects none. A reply carries a value, an error reply a `RemoteError`. A cancel says
that the caller no longer waits. A `RequestId` joins a request to its reply and its cancel.
-/

namespace PeerRpc

/-- The number that joins a request to its reply. -/
structure RequestId where
  val : UInt64
  deriving DecidableEq, Inhabited

namespace RequestId

/-- The decimal text of an id. -/
def text (r : RequestId) : String := toString r.val.toNat

/-- The diagnostic text of an id. -/
def debug (r : RequestId) : String := "RequestId(" ++ r.text ++ ")"

end RequestId

/-- Why a request failed at the other side. -/
inductive ErrorCode where
  /-- No service is registered under the id. -/
  | noSuchProxy
  /-- The service has no such method. -/
  | noSuchMethod
  /-- The arguments do not fit the method. -/
  | invalidArguments
  /-- The handler answered with an error. -/
  | handlerFailed
  /-- The handler panicked. -/
  | handlerPanicked
  /-- The handler was aborted because the caller cancelled. -/
  | cancelled
  deriving DecidableEq, Inhabited

namespace ErrorCode

/-- All codes, in the order in which diagnostics list them. -/
def all : List ErrorCode :=
  [noSuchProxy, noSuchMethod, invalidArguments, handlerFailed, handlerPanicked, cancelled]

/-- The name of a code inside a message. -/
def name : ErrorCode → String
  | noSuchProxy => "no_such_proxy"
  | noSuchMethod => "no_such_method"
  | invalidArguments => "invalid_arguments"
  | handlerFailed => "handler_failed"
  | handlerPanicked => "handler_panicked"
  | cancelled => "cancelled"

/-- The text of a code in front of an error message. -/
def text : ErrorCode → String
  | noSuchProxy => "NO_SUCH_PROXY"
  | noSuchMethod => "NO_SUCH_METHOD"
  | invalidArguments => "INVALID_ARGUMENTS"
  | handlerFailed => "HANDLER_FAILED"
  | handlerPanicked => "HANDLER_PANICKED"
  | cancelled => "CANCELLED"

/-- The code with this name. -/
def ofName? (s : String) : Option ErrorCode := all.find? fun c => c.name = s

theorem ofName?_name (c : ErrorCode) : ofName? c.name = some c := by cases c <;> decide

end ErrorCode

/-- The error of an error reply. -/
structure RemoteError where
  code : ErrorCode
  message : String
  details : Option Value := none
  deriving Inhabited

namespace RemoteError

/-- The text of an error: its code and its message. -/
def text (e : RemoteError) : String := e.code.text ++ ": " ++ e.message

/-- The error with these details in place of its own. -/
def withDetails (e : RemoteError) (details : Value) : RemoteError :=
  { e with details := some details }

/-- The error for a service that is not there. -/
def noSuchProxy (proxy : ProxyId) : RemoteError :=
  ⟨.noSuchProxy, "No such proxy: " ++ proxy.text, none⟩

/-- The error for a handler that was aborted. -/
def requestCancelled : RemoteError := ⟨.cancelled, "Request cancelled", none⟩

/-- The error for a handler that panicked with this message. -/
def panicked (message : String) : RemoteError :=
  ⟨.handlerPanicked, "Handler panicked: " ++ message, none⟩

end RemoteError

/-- The kind of a message. -/
inductive MessageKind where
  | request
  | notification
  | reply
  | replyErr
  | cancel
  deriving DecidableEq, Inhabited

namespace MessageKind

/-- All kinds, in the order in which diagnostics list them. -/
def all : List MessageKind := [request, notification, reply, replyErr, cancel]

/-- The name of a kind: the key that a message is filed under on the wire. -/
def name : MessageKind → String
  | request => "request"
  | notification => "notification"
  | reply => "reply"
  | replyErr => "reply_err"
  | cancel => "cancel"

/-- The capitalised name of a kind, used in diagnostics. -/
def title : MessageKind → String
  | request => "Request"
  | notification => "Notification"
  | reply => "Reply"
  | replyErr => "ReplyErr"
  | cancel => "Cancel"

/-- The kind with this name. -/
def ofName? (s : String) : Option MessageKind := all.find? fun k => k.name = s

theorem ofName?_name (k : MessageKind) : ofName? k.name = some k := by cases k <;> decide

end MessageKind

/-- A message. -/
inductive Message where
  /-- Run a method and reply once. -/
  | request (id : RequestId) (proxy : ProxyId) (method : String) (args : List Value)
  /-- Run a method and do not reply. -/
  | notification (proxy : ProxyId) (method : String) (args : List Value)
  /-- The value of a request. -/
  | reply (id : RequestId) (value : Value)
  /-- The error of a request. -/
  | replyErr (id : RequestId) (error : RemoteError)
  /-- The caller no longer waits for a request. -/
  | cancel (id : RequestId)
  deriving Inhabited

namespace Message

/-- The kind of a message. -/
def kind : Message → MessageKind
  | request .. => .request
  | notification .. => .notification
  | reply .. => .reply
  | replyErr .. => .replyErr
  | cancel .. => .cancel

/-- The request that a message belongs to, which a notification has none of. -/
def requestId? : Message → Option RequestId
  | request id .. => some id
  | notification .. => none
  | reply id _ => some id
  | replyErr id _ => some id
  | cancel id => some id

/-- The values that a message carries. -/
def payloads : Message → List Value
  | request _ _ _ args => args
  | notification _ _ args => args
  | reply _ v => [v]
  | replyErr _ e => e.details.toList
  | cancel _ => []

end Message

end PeerRpc
