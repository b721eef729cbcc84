import PeerRpc.Endpoint
import PeerRpc.Proofs.Codec.Depth

/-!
# PeerRpc.Proofs.Endpoint.Answers -- the message that answers a request

An answer whose payload is nested too deep is replaced by an error, `Endpoint.tooDeep`; every other
answer is sent as it is (`Endpoint.answer_eq`). Either can be encoded
(`Endpoint.encodeMessage_answer`), so a request never goes without an answer for its contents.
-/

namespace PeerRpc

namespace Endpoint

/-- The error that stands in for an answer that is nested too deep. -/
def tooDeep : RemoteError :=
  ⟨.handlerFailed,
    "Failed to encode reply: " ++ (CallError.codec (.nestingTooDeep Codec.maxDepth)).text, none⟩

/-- The message that answers a request, if it could always be encoded. -/
def plainAnswer (id : RequestId) : Except RemoteError Value → Message
  | .ok v => .reply id v
  | .error err => .replyErr id err

/-- The values in an answer. -/
def answerPayloads : Except RemoteError Value → List Value
  | .ok v => [v]
  | .error err => err.details.toList

theorem answer_of_encoded {id : RequestId} {reply : Except RemoteError Value} {bs : Bytes}
    (h : Codec.encodeMessage (plainAnswer id reply) = .ok bs) :
    answer id reply = plainAnswer id reply := by
  cases reply with
  | ok v =>
      have h' : Codec.encodeMessage (.reply id v) = .ok bs := h
      simp only [answer, h', plainAnswer]
  | error err =>
      have h' : Codec.encodeMessage (.replyErr id err) = .ok bs := h
      simp only [answer, h', plainAnswer]

theorem answer_of_refused {id : RequestId} {reply : Except RemoteError Value} {err : CodecError}
    (h : Codec.encodeMessage (plainAnswer id reply) = .error err) :
    answer id reply = .replyErr id tooDeep := by
  obtain rfl := Codec.encodeMessage_eq_error h
  cases reply with
  | ok v =>
      have h' : Codec.encodeMessage (.reply id v) = .error (.nestingTooDeep Codec.maxDepth) := h
      simp only [answer, h', tooDeep]
  | error err =>
      have h' : Codec.encodeMessage (.replyErr id err) =
        .error (.nestingTooDeep Codec.maxDepth) := h
      simp only [answer, h', tooDeep]

/-- An answer that is nested too deep is replaced, and no other. -/
theorem answer_eq (id : RequestId) (reply : Except RemoteError Value) :
    answer id reply =
      if ∀ v ∈ answerPayloads reply, v.depth ≤ Codec.maxDepth then plainAnswer id reply
      else .replyErr id tooDeep := by
  have hp : (plainAnswer id reply).payloads = answerPayloads reply := by cases reply <;> rfl
  -- the only error of the encoder is that a payload is nested too deep
  cases hcodec : Codec.encodeMessage (plainAnswer id reply) with
  | ok bs =>
      have hall := ((Codec.encodeMessage_eq_ok _ _).mp hcodec).1
      rw [hp] at hall
      rw [if_pos hall, answer_of_encoded hcodec]
  | error err =>
      rw [if_neg, answer_of_refused hcodec]
      intro hall
      rw [← hp] at hall
      have hok := (Codec.encodeMessage_eq_ok _ _).mpr ⟨hall, rfl⟩
      cases hcodec.symm.trans hok

/-- An error without details is sent as it is. -/
theorem answer_of_no_details (id : RequestId) {err : RemoteError} (h : err.details = none) :
    answer id (.error err) = .replyErr id err := by
  rw [answer_eq, if_pos]
  · rfl
  · simp [answerPayloads, h]

/-- **An answer can always be encoded.** Its replacement carries no payload. -/
theorem encodeMessage_answer (id : RequestId) (reply : Except RemoteError Value) :
    Codec.encodeMessage (answer id reply) = .ok (Cbor.encodeMessage (answer id reply)) := by
  rw [Codec.encodeMessage_eq_ok, answer_eq]
  refine ⟨?_, rfl⟩
  split
  · next hall =>
      intro v hv
      exact hall v (by cases reply <;> exact hv)
  · nofun

end Endpoint

/-- What the caller is sent of an outcome. -/
def Outcome.message (id : RequestId) : Outcome → Message
  | value v => if v.depth ≤ Codec.maxDepth then .reply id v else .replyErr id Endpoint.tooDeep
  | failed e =>
    if ∀ v ∈ e.toRemote.details, v.depth ≤ Codec.maxDepth then .replyErr id e.toRemote
    else .replyErr id Endpoint.tooDeep
  | panicked message => .replyErr id (.panicked message)
  | aborted => .replyErr id .requestCancelled

/-- The caller is sent a value or an error. -/
theorem Outcome.message_cases (id : RequestId) (out : Outcome) :
    (∃ v, out.message id = .reply id v) ∨ ∃ err, out.message id = .replyErr id err := by
  cases out with
  | value v =>
      rw [message]
      split
      · exact Or.inl ⟨v, rfl⟩
      · exact Or.inr ⟨_, rfl⟩
  | failed e =>
      rw [message]
      split <;> exact Or.inr ⟨_, rfl⟩
  | panicked message => exact Or.inr ⟨_, rfl⟩
  | aborted => exact Or.inr ⟨_, rfl⟩

theorem Endpoint.answer_toReply (id : RequestId) (o : Outcome) :
    answer id o.toReply = o.message id := by
  rw [answer_eq]
  cases o with
  | value v => simp [Outcome.message, Outcome.toReply, answerPayloads, plainAnswer]
  | failed e => simp [Outcome.message, Outcome.toReply, answerPayloads, plainAnswer]
  | panicked message =>
      refine if_pos fun v hv => ?_
      cases hv
  | aborted =>
      refine if_pos fun v hv => ?_
      cases hv

end PeerRpc
