import PeerRpc.Cbor.Cursor
import PeerRpc.Duration
import PeerRpc.Message

/-!
# PeerRpc.Error -- what can go wrong, and how it is worded

Errors are causes. A byte stream fails with a `StreamError`, a channel with a `TransportError`, the
codec with a `CodecError`, a handler with a `HandlerError`, and a call with a `CallError`, which may
carry any of the others. Each type has one function `text` that words it.

Two conversions matter to callers: `HandlerError.toRemote` is what the other side learns of a failed
handler, and `CallError.ofRemote` is what the caller makes of it.
-/

namespace PeerRpc

/-! ## Channels -/

/-- Why a frame is refused. -/
inductive FrameError where
  /-- The payload is longer than allowed. -/
  | tooLarge (size max : Nat)
  /-- No frame has this type octet. -/
  | unknownType (type : UInt8)
  /-- The check word does not belong to the payload. -/
  | badChecksum (expected actual : UInt32)
  deriving DecidableEq

/-- The text of a frame that is malformed. -/
def FrameError.malformedText : FrameError → String
  | tooLarge size max => "Frame size " ++ toString size ++ " exceeds maximum " ++ toString max
  | unknownType t => "Unknown frame type: 0x" ++ Quoted.hex t.toNat
  | badChecksum expected actual =>
    "Checksum mismatch: expected " ++ Quoted.hexPadded 8 expected.toNat ++
      ", got " ++ Quoted.hexPadded 8 actual.toNat

/-- Why reading or writing a byte stream fails. -/
inductive StreamError where
  /-- The stream holds something that is not a frame. -/
  | frame (cause : FrameError)
  /-- The stream ends inside a frame. -/
  | bytesRemaining
  /-- The reader at the other end has gone. -/
  | brokenPipe
  /-- Any other cause, in its own words. -/
  | other (text : String)
  deriving DecidableEq

/-- The classes of failures of a byte stream. -/
inductive StreamKind where
  | invalidData
  | brokenPipe
  | other
  deriving DecidableEq

/-- The name of a class. -/
def StreamKind.name : StreamKind → String
  | invalidData => "InvalidData"
  | brokenPipe => "BrokenPipe"
  | other => "Other"

/-- The class of an error of a byte stream. What is not a frame is invalid data. -/
def StreamError.kind : StreamError → StreamKind
  | frame _ => .invalidData
  | brokenPipe => .brokenPipe
  | bytesRemaining => .other
  | other _ => .other

/-- Why a channel cannot carry a message. -/
inductive TransportError where
  /-- The channel is closed. -/
  | closed
  /-- The byte stream below it failed. -/
  | stream (cause : StreamError)
  /-- The message is longer than allowed. -/
  | frameTooLarge (size max : Nat)
  /-- A frame is malformed. -/
  | invalidFrame (text : String)
  /-- Any other cause, in its own words. -/
  | other (text : String)
  deriving DecidableEq

/-- A refused frame as an error of the channel. -/
def FrameError.toTransport : FrameError → TransportError
  | tooLarge size max => .frameTooLarge size max
  | e => .invalidFrame e.malformedText

/-- The text of an error of a channel that does not come from a stream. -/
def FrameError.text : FrameError → String
  | tooLarge size max => (tooLarge size max).malformedText
  | e => "Invalid frame: " ++ e.malformedText

/-- The text of an error of a byte stream. -/
def StreamError.text : StreamError → String
  | frame cause => cause.text
  | bytesRemaining => "bytes remaining on stream"
  | brokenPipe => "broken pipe"
  | other s => s

namespace TransportError

/-- The text of an error of a channel. -/
def text : TransportError → String
  | closed => "Channel closed"
  | stream cause => "I/O error: " ++ cause.text
  | frameTooLarge size max => (FrameError.tooLarge size max).text
  | invalidFrame s => "Invalid frame: " ++ s
  | other s => s

/-- Whether the channel cannot be used any further. -/
def isTerminal : TransportError → Bool
  | closed => true
  | stream _ => true
  | invalidFrame _ => true
  | frameTooLarge .. => false
  | other _ => false

end TransportError

/-! ## The codec -/

/-- Why typed data has no plain form. -/
inductive PlainError where
  /-- A key of a map is not a text and has no text. -/
  | keyNotText
  /-- A key of a map is an infinite number or NaN. -/
  | keyNotFinite
  /-- An integer that no 64 bits hold. -/
  | outOfRange
  /-- Any other cause, in its own words. -/
  | other (text : String)
  deriving DecidableEq

/-- The text of data that has no plain form. -/
def PlainError.text : PlainError → String
  | keyNotText => "key must be a string"
  | keyNotFinite => "float key must be finite (got NaN or +/-inf)"
  | outOfRange => "number out of range"
  | other s => s

/-- Why data cannot be turned into octets or back. -/
inductive CodecError where
  /-- The data has no plain form. -/
  | unwritable (cause : PlainError)
  /-- The octets do not encode the expected data. -/
  | undecodable (cause : Cbor.DecodeError)
  /-- The value does not have the expected shape. -/
  | unexpected (cause : Mismatch)
  /-- A payload is nested deeper than the other side follows. -/
  | nestingTooDeep (max : Nat)

/-- The text of an error of the codec. -/
def CodecError.text : CodecError → String
  | unwritable cause => "Failed to serialize: " ++ cause.text
  | undecodable cause => "Failed to deserialize: " ++ cause.text
  | unexpected cause => "Failed to deserialize: " ++ cause.text .plain
  | nestingTooDeep max => "Payload nested deeper than " ++ toString max ++ " levels"

/-! ## Handlers -/

/-- Why a handler fails. -/
inductive HandlerError where
  /-- The service has no such method. -/
  | noSuchMethod (method : String)
  /-- The arguments do not fit the method. -/
  | invalidArguments (text : String)
  /-- The handler failed for a reason of its own. -/
  | failed (message : String) (details : Option Value)

namespace HandlerError

/-- A failure without details. -/
def plain (message : String) : HandlerError := failed message none

/-- A failure with its cause and the contexts put around it, the outermost first. -/
def chain (cause : String) (contexts : List String) : HandlerError :=
  plain (": ".intercalate (contexts.reverse ++ [cause]))

/-- The argument at an index does not have the expected shape. -/
def badArgument (index : Nat) (cause : Mismatch) : HandlerError :=
  invalidArguments ("argument " ++ toString index ++ ": " ++ cause.text .plain)

/-- The text of a handler's error. -/
def text : HandlerError → String
  | noSuchMethod method => "No such method: " ++ method
  | invalidArguments s => "Invalid arguments: " ++ s
  | failed message _ => message

/-- What the other side learns of a handler's error. -/
def toRemote : HandlerError → RemoteError
  | noSuchMethod method => ⟨.noSuchMethod, (noSuchMethod method).text, none⟩
  | invalidArguments s => ⟨.invalidArguments, (invalidArguments s).text, none⟩
  | failed message details => ⟨.handlerFailed, message, details⟩

end HandlerError

/-! ## Calls -/

/-- What an identifier was used for on the wrong side. -/
inductive Usage where
  | hosted
  | proxied
  deriving DecidableEq

/-- The word for a use. -/
def Usage.text : Usage → String
  | hosted => "hosted"
  | proxied => "proxied"

/-- Why a call fails. -/
inductive CallError where
  /-- The other side has no service under the id. -/
  | noSuchProxy (proxy : ProxyId)
  /-- The handler failed. -/
  | remote (error : RemoteError)
  /-- The channel closed before the call was answered. -/
  | disconnected
  /-- The caller cancelled. -/
  | cancelled
  /-- No answer came in time. -/
  | timeout (limit : Duration)
  /-- Too many calls wait for answers. -/
  | tooManyInFlight (current max : Nat)
  /-- The identifier belongs to the wrong side. -/
  | wrongSide (identifier : String) (usage : Usage) (side : Side)
  /-- The identifier is defined already. -/
  | duplicateIdentifier (identifier : String)
  /-- The data cannot be encoded or decoded. -/
  | codec (cause : CodecError)
  /-- The channel refused the request. -/
  | transport (cause : TransportError)

namespace CallError

/-- The text of a call's error. -/
def text : CallError → String
  | noSuchProxy proxy => "No such proxy: " ++ proxy.text
  | remote error => "Remote error: " ++ error.text
  | disconnected => "Channel disconnected"
  | cancelled => "Request cancelled"
  | timeout limit => "Request timed out after " ++ limit.text
  | tooManyInFlight current max =>
    "Too many in-flight requests: " ++ toString current ++ "/" ++ toString max
  | wrongSide identifier usage side =>
    "Proxy identifier " ++ identifier ++ " cannot be " ++ usage.text ++ " on the " ++ side.name ++
      " side"
  | duplicateIdentifier identifier => "Duplicate proxy identifier: " ++ identifier
  | codec cause => "Codec error: " ++ cause.text
  | transport cause => "Transport error: " ++ cause.text

/-- Whether the call failed because the channel closed. -/
def isDisconnected : CallError → Bool
  | disconnected => true
  | _ => false

/-- What the caller of the service `proxy` makes of an error reply. -/
def ofRemote (proxy : ProxyId) (e : RemoteError) : CallError :=
  match e.code with
  | .noSuchProxy => noSuchProxy proxy
  | _ => remote e

end CallError

end PeerRpc
