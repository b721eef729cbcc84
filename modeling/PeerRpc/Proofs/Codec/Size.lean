import PeerRpc.Endpoint
import PeerRpc.Proofs.Cbor.Messages
import PeerRpc.Proofs.Endpoint.Traffic

/-!
# PeerRpc.Proofs.Codec.Size -- messages that no channel is too narrow for

Three kinds of messages must never be refused for their size, because nothing would take their
place: a cancel, the error for a service that is not there, and the error that stands in for a
refused answer. All of them fit into `Codec.narrowest` octets.
-/

namespace PeerRpc

/-! ## Lengths -/

theorem Utf8.length_encode_toString {n k : Nat} (hk : 0 < k) (hn : n < 10 ^ k) :
    (Utf8.encode (toString n)).length ≤ k := by
  have hdigit : ∀ c ∈ Nat.toDigits 10 n, (String.utf8EncodeChar c).length = 1 := by
    intro c hc
    have hascii := Nat.isDigit_of_mem_toDigits (by decide) (by decide) hc
    rw [String.length_utf8EncodeChar, Char.utf8Size_eq_one_iff]
    simp only [Char.isDigit, Bool.and_eq_true, decide_eq_true_eq] at hascii
    exact UInt32.le_trans hascii.2 (by decide)
  have hlen : (Utf8.encode (toString n)).length = (Nat.toDigits 10 n).length := by
    rw [Nat.toString_eq_ofList_toDigits, Utf8.encode_ofList, List.length_flatMap]
    rw [List.map_congr_left hdigit]
    simp
  rw [hlen]
  exact (Nat.length_toDigits_le_iff (by decide) hk).mpr hn

namespace Cbor

theorem length_encodeArgument (major n : Nat) : (encodeArgument major n).length ≤ 9 := by
  unfold encodeArgument
  dsimp only
  repeat' split
  all_goals simp

theorem length_encodeText {s : String} (hs : (Utf8.encode s).length < 256) :
    (encodeText s).length ≤ (Utf8.encode s).length + 2 := by
  have hhead : (Head.text (some (Utf8.encode s).length)).encode.length ≤ 2 := by
    show (encodeArgument 3 _).length ≤ 2
    have hs' : (Utf8.encode s).length < 2 ^ 8 := hs
    unfold encodeArgument
    dsimp only
    by_cases hshort : (Utf8.encode s).length < 24
    · rw [if_pos hshort]
      exact Nat.le_succ 1
    · rw [if_neg hshort, if_pos hs']
      show (Bytes.bigEndian 1 _).length + 1 ≤ 2
      exact Nat.le_of_eq (congrArg (· + 1) (Bytes.length_bigEndian 1 _))
  unfold encodeText
  rw [List.length_append]
  omega

theorem length_encodeInt (n : Int) : (encodeInt n).length ≤ 9 := by
  unfold encodeInt
  split <;> exact length_encodeArgument _ _

end Cbor

/-! ## Messages -/

namespace Codec

/-- The fewest octets a channel has to carry. -/
def narrowest : Nat := 256

theorem length_cancel (id : RequestId) :
    (Cbor.encodeMessage (.cancel id)).length ≤ narrowest := by
  have hid := Cbor.length_encodeInt id.val.toNat
  have hparts : Cbor.Reader.messageParts (.cancel id) =
      [Cbor.encodeText MessageField.id.name ++ Cbor.encodeInt id.val.toNat] := rfl
  have hname : (Cbor.encodeText MessageField.id.name).length = 3 := by decide
  have hkind : (Cbor.encodeText (Message.cancel id).kind.name).length = 7 := by
    show (Cbor.encodeText "cancel").length = 7
    decide
  rw [Cbor.Reader.encodeMessage_eq, hparts]
  simp only [List.length_append, List.flatten_cons, List.flatten_nil, List.length_nil,
    List.length_singleton, hname, hkind]
  have hmap : (Cbor.Head.map (some 1)).encode.length = 1 := by decide
  rw [hmap]
  unfold narrowest
  omega

/-- The length of an error reply without details. -/
theorem length_replyErr (id : RequestId) (code : ErrorCode) {text : String}
    (htext : (Utf8.encode text).length < 256) :
    (Cbor.encodeMessage (.replyErr id ⟨code, text, none⟩)).length ≤
      (Utf8.encode text).length + 80 := by
  have hid := Cbor.length_encodeInt id.val.toNat
  have hbytes := Cbor.length_encodeText htext
  have hcode : (Cbor.encodeText code.name).length ≤ 18 := by cases code <;> decide
  have hparts : Cbor.Reader.messageParts (.replyErr id ⟨code, text, none⟩) =
      [Cbor.encodeText MessageField.id.name ++ Cbor.encodeInt id.val.toNat,
        Cbor.encodeText MessageField.error.name ++ Cbor.encodeRemoteError ⟨code, text, none⟩] := rfl
  have herror : (Cbor.encodeRemoteError ⟨code, text, none⟩).length ≤
      (Cbor.encodeText code.name).length + (Cbor.encodeText text).length + 23 := by
    have hrecord : Cbor.encodeRemoteError ⟨code, text, none⟩ = (Cbor.Head.map (some 3)).encode ++
        (Cbor.encodeText ErrorField.code.name ++ Cbor.encodeText code.name ++
          (Cbor.encodeText ErrorField.message.name ++ Cbor.encodeText text ++
            (Cbor.encodeText ErrorField.details.name ++ Cbor.encodeNull ++ []))) := rfl
    have h₁ : (Cbor.Head.map (some 3)).encode.length = 1 := by decide
    have h₂ : (Cbor.encodeText ErrorField.code.name).length = 5 := by decide
    have h₃ : (Cbor.encodeText ErrorField.message.name).length = 8 := by decide
    have h₄ : (Cbor.encodeText ErrorField.details.name).length = 8 := by decide
    have h₅ : Cbor.encodeNull.length = 1 := by decide
    rw [hrecord]
    simp only [List.length_append, h₁, h₂, h₃, h₄, h₅, List.length_nil]
    omega
  have h₁ : (Cbor.Head.map (some 1)).encode.length = 1 := by decide
  have h₂ : (Cbor.Head.map (some 2)).encode.length = 1 := by decide
  have h₃ : (Cbor.encodeText MessageField.id.name).length = 3 := by decide
  have h₄ : (Cbor.encodeText MessageField.error.name).length = 6 := by decide
  have h₅ : (Cbor.encodeText (Message.replyErr id ⟨code, text, none⟩).kind.name).length = 10 := by
    show (Cbor.encodeText "reply_err").length = 10
    decide
  rw [Cbor.Reader.encodeMessage_eq, hparts]
  simp only [List.length_append, List.flatten_cons, List.flatten_nil, List.length_nil,
    List.length_cons, h₁, h₂, h₃, h₄, h₅]
  omega

theorem length_noSuchProxy (id : RequestId) (proxy : ProxyId) :
    (Cbor.encodeMessage (.replyErr id (.noSuchProxy proxy))).length ≤ narrowest := by
  have hdigits := Utf8.length_encode_toString (n := proxy.val.toNat) (k := 10) (by decide)
    (Nat.lt_of_lt_of_le proxy.val.toNat_lt (by decide))
  have hfixed : (Utf8.encode "No such proxy: ").length = 15 := by decide
  have hmark : (Utf8.encode "#").length = 1 := by decide
  have htext : (Utf8.encode ("No such proxy: " ++ proxy.text)).length ≤ 26 := by
    unfold ProxyId.text
    rw [Utf8.encode_append, Utf8.encode_append, List.length_append, List.length_append, hfixed,
      hmark]
    omega
  have hle := length_replyErr id .noSuchProxy (Nat.lt_of_le_of_lt htext (by decide))
  exact Nat.le_trans hle (by unfold narrowest; omega)

/-- The error that stands in for an answer that is too long, however long that is. -/
theorem length_undelivered (id : RequestId) {size max : Nat} (hsize : size < 2 ^ 64)
    (hmax : max < 2 ^ 64) :
    (Cbor.encodeMessage (.replyErr id (Endpoint.undelivered (.frameTooLarge size max)))).length ≤
      narrowest := by
  have h₁ := Utf8.length_encode_toString (n := size) (k := 20) (by decide)
    (Nat.lt_trans hsize (by decide))
  have h₂ := Utf8.length_encode_toString (n := max) (k := 20) (by decide)
    (Nat.lt_trans hmax (by decide))
  have h₃ : (Utf8.encode "Reply could not be delivered: ").length = 30 := by decide
  have h₄ : (Utf8.encode "Frame size ").length = 11 := by decide
  have h₅ : (Utf8.encode " exceeds maximum ").length = 17 := by decide
  have htext : (Utf8.encode ("Reply could not be delivered: " ++
      (TransportError.frameTooLarge size max).text)).length ≤ 98 := by
    show (Utf8.encode ("Reply could not be delivered: " ++
      ("Frame size " ++ toString size ++ " exceeds maximum " ++ toString max))).length ≤ 98
    simp only [Utf8.encode_append, List.length_append, h₃, h₄, h₅]
    omega
  have hle := length_replyErr id .handlerFailed (Nat.lt_of_le_of_lt htext (by decide))
  exact Nat.le_trans hle (by unfold narrowest; omega)

theorem length_requestCancelled (id : RequestId) :
    (Cbor.encodeMessage (.replyErr id .requestCancelled)).length ≤ narrowest := by
  have htext : (Utf8.encode "Request cancelled").length = 17 := by decide
  have hshort : (Utf8.encode "Request cancelled").length < 256 := by
    rw [htext]
    decide
  have hle := length_replyErr id .cancelled hshort
  exact Nat.le_trans hle (by rw [htext]; decide)

end Codec

end PeerRpc
