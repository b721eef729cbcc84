import PeerRpc.Message.Draft
import PeerRpc.Shape

/-!
# PeerRpc.Value.Writer -- typed data as plain data

`Shape.toValue s a` is the plain data that an inhabitant of the shape `s` is sent as. A number that
is infinite or NaN has no plain form and is sent as null; everything else is sent as it is.
-/

namespace PeerRpc

namespace ErrorCode

/-- A code as plain data. -/
def toValue (c : ErrorCode) : Value := .string c.name

end ErrorCode

namespace RemoteError

/-- A remote error as plain data. Absent details are null. -/
def toValue (e : RemoteError) : Value :=
  .object (Keyed.ofList [
    (ErrorField.code.name, e.code.toValue),
    (ErrorField.message.name, .string e.message),
    (ErrorField.details.name, e.details.getD .null)])

end RemoteError

namespace Message

/-- The fields of a message as plain data. -/
def toFields : Message → List (MessageField × Value)
  | request id proxy method args =>
    [(.id, .int (.ofUInt64 id.val)), (.proxy, .int (.ofUInt32 proxy.val)),
      (.method, .string method), (.args, .array args)]
  | notification proxy method args =>
    [(.proxy, .int (.ofUInt32 proxy.val)), (.method, .string method), (.args, .array args)]
  | reply id value => [(.id, .int (.ofUInt64 id.val)), (.value, value)]
  | replyErr id error => [(.id, .int (.ofUInt64 id.val)), (.error, error.toValue)]
  | cancel id => [(.id, .int (.ofUInt64 id.val))]

/-- A message as plain data. -/
def toValue (m : Message) : Value :=
  .object [(m.kind.name, .object (Keyed.ofList (m.toFields.map fun (f, v) => (f.name, v))))]

end Message

/-- The plain data of an inhabitant of a shape. -/
def Shape.toValue : (s : Shape) → s.Carrier → Value
  | .bool, b => .bool b
  | .int _, n => .int n.toWireInt
  | .float, x => .ofBinary64 x
  | .char, c => .string (String.ofList [c])
  | .string, s => .string s
  | .unit, _ => .null
  | .option s, a => (a.map s.toValue).getD .null
  | .list s, items => .array (items.map s.toValue)
  | .pair a b, (x, y) => .array [a.toValue x, b.toValue y]
  | .map s, entries => .object (Keyed.ofList (entries.map fun (k, a) => (k, s.toValue a)))
  | .value, v => v
  | .side, s => .string s.title
  | .proxyId, p => .int (.ofUInt32 p.val)
  | .requestId, r => .int (.ofUInt64 r.val)
  | .errorCode, c => c.toValue
  | .remoteError, e => e.toValue
  | .message, m => m.toValue

end PeerRpc
