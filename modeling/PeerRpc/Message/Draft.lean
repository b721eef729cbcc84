import PeerRpc.Message
import PeerRpc.Mismatch

/-!
# PeerRpc.Message.Draft -- messages while they are read

A message and a remote error are records whose fields may come in any order. A reader fills a draft
field by field and finishes it at the end: a field that is missing is reported in the order in
which the record declares its fields, and a field that comes twice is reported at once.
-/

namespace PeerRpc

/-- The fields of a remote error. -/
inductive ErrorField where
  | code
  | message
  | details
  deriving DecidableEq

namespace ErrorField

/-- The fields in the order of their declaration. -/
def all : List ErrorField := [code, message, details]

/-- The name of a field on the wire. -/
def name : ErrorField → String
  | code => "code"
  | message => "message"
  | details => "details"

/-- The field with this name. -/
def ofName? (s : String) : Option ErrorField := all.find? fun f => f.name = s

end ErrorField

/-- A remote error while it is read. -/
structure ErrorDraft where
  code : Option ErrorCode := none
  message : Option String := none
  details : Option (Option Value) := none

namespace ErrorDraft

/-- Whether a field has been filled. -/
def has (d : ErrorDraft) : ErrorField → Bool
  | .code => d.code.isSome
  | .message => d.message.isSome
  | .details => d.details.isSome

/-- The error, once all fields but the details are there. -/
def finish (d : ErrorDraft) : Except Mismatch RemoteError :=
  match d.code, d.message with
  | some code, some message => .ok ⟨code, message, d.details.join⟩
  | none, _ => .error (.missingField ErrorField.code.name)
  | _, none => .error (.missingField ErrorField.message.name)

end ErrorDraft

/-- The fields that messages have. -/
inductive MessageField where
  | id
  | proxy
  | method
  | args
  | value
  | error
  deriving DecidableEq

namespace MessageField

/-- The name of a field on the wire. -/
def name : MessageField → String
  | id => "id"
  | proxy => "proxy_id"
  | method => "method"
  | args => "args"
  | value => "value"
  | error => "error"

end MessageField

namespace MessageKind

/-- The fields of a kind of messages, in the order of their declaration. -/
def fields : MessageKind → List MessageField
  | request => [.id, .proxy, .method, .args]
  | notification => [.proxy, .method, .args]
  | reply => [.id, .value]
  | replyErr => [.id, .error]
  | cancel => [.id]

/-- The field of a kind with this name. -/
def field? (k : MessageKind) (s : String) : Option MessageField :=
  k.fields.find? fun f => f.name = s

end MessageKind

/-- A message while it is read. -/
structure MessageDraft where
  id : Option RequestId := none
  proxy : Option ProxyId := none
  method : Option String := none
  args : Option (List Value) := none
  value : Option Value := none
  error : Option RemoteError := none

namespace MessageDraft

/-- Whether a field has been filled. -/
def has (d : MessageDraft) : MessageField → Bool
  | .id => d.id.isSome
  | .proxy => d.proxy.isSome
  | .method => d.method.isSome
  | .args => d.args.isSome
  | .value => d.value.isSome
  | .error => d.error.isSome

/-- What a field holds, or the mismatch for a field that is missing. -/
def demand {α : Type} (f : MessageField) : Option α → Except Mismatch α
  | some a => .ok a
  | none => .error (.missingField f.name)

/-- The message of a kind, once all its fields are there. -/
def finish (d : MessageDraft) : MessageKind → Except Mismatch Message
  | .request => do
    let id ← demand .id d.id
    let proxy ← demand .proxy d.proxy
    let method ← demand .method d.method
    let args ← demand .args d.args
    return .request id proxy method args
  | .notification => do
    let proxy ← demand .proxy d.proxy
    let method ← demand .method d.method
    let args ← demand .args d.args
    return .notification proxy method args
  | .reply => do
    let id ← demand .id d.id
    let value ← demand .value d.value
    return .reply id value
  | .replyErr => do
    let id ← demand .id d.id
    let error ← demand .error d.error
    return .replyErr id error
  | .cancel => do
    let id ← demand .id d.id
    return .cancel id

end MessageDraft

end PeerRpc
