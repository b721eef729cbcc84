import PeerRpc.Crc32
import PeerRpc.Error

/-!
# PeerRpc.Frame -- messages on a byte stream

A frame is a header of nine octets and a payload. The header holds the length of the payload in
four octets, the type of the frame in one and the check word of the payload in four, the most
significant octet first. A frame of type message carries one message; one of type close says that
the sender closes the channel.

`Frame.decode` looks at a buffer and either takes a frame from its front, or waits for more octets,
or refuses. A length that is too great or a type that is unknown leaves the buffer as it is, so the
same error comes again; a frame with a wrong check word is dropped from the buffer.
-/

namespace PeerRpc

/-- The type of a frame. -/
inductive FrameType where
  | message
  | close
  deriving DecidableEq, Inhabited

namespace FrameType

/-- The octet that stands for a type. -/
def octet : FrameType → UInt8
  | message => 0x01
  | close => 0x06

/-- The type that an octet stands for. -/
def ofOctet (b : UInt8) : Except FrameError FrameType :=
  if b = 0x01 then .ok message
  else if b = 0x06 then .ok close
  else .error (.unknownType b)

/-- The name of a type. -/
def name : FrameType → String
  | message => "Message"
  | close => "Close"

theorem ofOctet_octet (t : FrameType) : ofOctet t.octet = .ok t := by cases t <;> rfl

end FrameType

/-- A frame. -/
structure Frame where
  type : FrameType
  payload : Bytes
  checksum : UInt32
  deriving DecidableEq, Inhabited

namespace Frame

/-- The length of a header. -/
def headerSize : Nat := 9

/-- The longest payload where nothing else is said. -/
def defaultMax : Nat := 10 * 1024 * 1024

/-- The frame of a type with a payload and its check word. -/
def ofPayload (t : FrameType) (payload : Bytes) : Frame := ⟨t, payload, Crc32.checksum payload⟩

/-- The frame of a message. -/
def message (payload : Bytes) : Frame := ofPayload .message payload

/-- The frame that closes a channel. -/
def close : Frame := ofPayload .close []

/-- Refuses a frame whose check word does not belong to its payload. -/
def verify (f : Frame) : Except FrameError Unit :=
  let actual := Crc32.checksum f.payload
  if f.checksum = actual then .ok () else .error (.badChecksum f.checksum actual)

/-- The octets of a frame: header and payload. -/
def toBytes (f : Frame) : Bytes :=
  Bytes.bigEndian 4 f.payload.length ++ f.type.octet ::
    (Bytes.bigEndian 4 f.checksum.toNat ++ f.payload)

/-- The octets of a frame, unless its payload is longer than `max`. -/
def encode (max : Nat) (f : Frame) : Except FrameError Bytes :=
  if max < f.payload.length then .error (.tooLarge f.payload.length max) else .ok f.toBytes

/-- What a look at a buffer finds. -/
inductive Decoded where
  /-- There is no whole frame yet. -/
  | waiting
  /-- A frame, and the buffer without it. -/
  | frame (f : Frame) (rest : Bytes)
  /-- An error, and the buffer it leaves. -/
  | refused (e : FrameError) (rest : Bytes)
  deriving Inhabited

/-- Takes a frame from the front of a buffer. -/
def decode (max : Nat) (buffer : Bytes) : Decoded :=
  if (buffer.take headerSize).length < headerSize then .waiting
  else
    let size := Bytes.ofBigEndian (buffer.take 4)
    let rest := buffer.drop headerSize
    let payload := rest.take size
    if max < size then .refused (.tooLarge size max) buffer
    else if payload.length < size then .waiting
    else
      match FrameType.ofOctet ((buffer.drop 4).headD 0) with
      | .error e => .refused e buffer
      | .ok t =>
        let f : Frame := ⟨t, payload, .ofNat (Bytes.ofBigEndian ((buffer.drop 5).take 4))⟩
        let rest := rest.drop size
        match f.verify with
        | .error e => .refused e rest
        | .ok () => .frame f rest

/-- What a look at a buffer finds at the end of its stream. -/
inductive DecodedAtEnd where
  /-- The stream has ended between two frames. -/
  | finished
  /-- A frame, and the buffer without it. -/
  | frame (f : Frame) (rest : Bytes)
  /-- An error, and the buffer it leaves. -/
  | refused (e : StreamError) (rest : Bytes)
  deriving Inhabited

/-- Takes a frame from the front of a buffer to which nothing more will come. -/
def decodeAtEnd (max : Nat) (buffer : Bytes) : DecodedAtEnd :=
  match decode max buffer with
  | .frame f rest => .frame f rest
  | .refused e rest => .refused (.frame e) rest
  | .waiting => if buffer.isEmpty then .finished else .refused .bytesRemaining buffer

end Frame

end PeerRpc
