import PeerRpc.Cbor.Head
import PeerRpc.Message.Draft
import PeerRpc.Shape
import PeerRpc.Text.Utf8

/-!
# PeerRpc.Cbor.Writer -- data as octets

`Shape.encode` writes an inhabitant of a shape. Every head has its shortest form and every
container its length in front. A record is a map from the names of its fields, in the order of
their declaration; a message is a map from its kind to the record of its fields.
-/

namespace PeerRpc

namespace Cbor

/-- An integer: a number from zero up, or `-1 - n`. -/
def encodeInt (n : Int) : Bytes :=
  if 0 ≤ n then (Head.positive n.toNat).encode else (Head.negative (-1 - n).toNat).encode

/-- A text after its length in octets. -/
def encodeText (s : String) : Bytes :=
  let bs := Utf8.encode s
  (Head.text (some bs.length)).encode ++ bs

/-- A condition. -/
def encodeBool (b : Bool) : Bytes :=
  (Head.simple (if b then simpleTrue else simpleFalse)).encode

/-- Null. -/
def encodeNull : Bytes := (Head.simple simpleNull).encode

mutual

/-- A value. -/
def encodeValue : Value → Bytes
  | .null => encodeNull
  | .bool b => encodeBool b
  | .int n => encodeInt n.1
  | .float x => encodeFloat x.1
  | .string s => encodeText s
  | .array items => (Head.array (some items.length)).encode ++ encodeItems items
  | .object fields => (Head.map (some fields.length)).encode ++ encodeFields fields

/-- The items of an array, one after the other. -/
def encodeItems : List Value → Bytes
  | [] => []
  | v :: rest => encodeValue v ++ encodeItems rest

/-- The keys and values of an object, one pair after the other. -/
def encodeFields : Keyed Value → Bytes
  | [] => []
  | (k, v) :: rest => encodeText k ++ (encodeValue v ++ encodeFields rest)

end

/-- A record: the names of its fields, each with its content already written. -/
def encodeRecord (fields : List (String × Bytes)) : Bytes :=
  (Head.map (some fields.length)).encode ++
    fields.flatMap fun (name, content) => encodeText name ++ content

/-- A remote error. Absent details are written as null. -/
def encodeRemoteError (e : RemoteError) : Bytes :=
  encodeRecord [
    (ErrorField.code.name, encodeText e.code.name),
    (ErrorField.message.name, encodeText e.message),
    (ErrorField.details.name, encodeValue (e.details.getD .null))]

/-- The fields of a message with their contents. -/
def encodeMessageFields : Message → List (MessageField × Bytes)
  | .request id proxy method args =>
    [(.id, encodeInt id.val.toNat), (.proxy, encodeInt proxy.val.toNat),
      (.method, encodeText method), (.args, encodeValue (.array args))]
  | .notification proxy method args =>
    [(.proxy, encodeInt proxy.val.toNat), (.method, encodeText method),
      (.args, encodeValue (.array args))]
  | .reply id value => [(.id, encodeInt id.val.toNat), (.value, encodeValue value)]
  | .replyErr id error => [(.id, encodeInt id.val.toNat), (.error, encodeRemoteError error)]
  | .cancel id => [(.id, encodeInt id.val.toNat)]

/-- A message. -/
def encodeMessage (m : Message) : Bytes :=
  encodeRecord [(m.kind.name,
    encodeRecord ((encodeMessageFields m).map fun (f, content) => (f.name, content)))]

end Cbor

open Cbor in
/-- An inhabitant of a shape as octets. -/
def Shape.encode : (s : Shape) → s.Carrier → Bytes
  | .bool, b => encodeBool b
  | .int _, n => encodeInt n.1
  | .float, x => encodeFloat x
  | .char, c => encodeText (String.ofList [c])
  | .string, s => encodeText s
  | .unit, _ => encodeNull
  | .option s, a => (a.map s.encode).getD encodeNull
  | .list s, items => (Head.array (some items.length)).encode ++ items.flatMap s.encode
  | .pair a b, (x, y) => (Head.array (some 2)).encode ++ (a.encode x ++ b.encode y)
  | .map s, entries =>
    (Head.map (some entries.length)).encode ++
      entries.flatMap fun (k, a) => encodeText k ++ s.encode a
  | .value, v => encodeValue v
  | .side, s => encodeText s.title
  | .proxyId, p => encodeInt p.val.toNat
  | .requestId, r => encodeInt r.val.toNat
  | .errorCode, c => encodeText c.name
  | .remoteError, e => encodeRemoteError e
  | .message, m => encodeMessage m

end PeerRpc
