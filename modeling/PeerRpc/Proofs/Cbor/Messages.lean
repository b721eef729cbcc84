import PeerRpc.Codec
import PeerRpc.Proofs.Cbor.Values

/-!
# PeerRpc.Proofs.Cbor.Messages -- messages that were written are read back

A message that can be encoded is decoded as `Message.received`: the same message, with the fields of
objects in order and without details that are null, whatever follows its octets
(`Codec.decodeMessage_append`). Only a payload with an object that starts with a long key may be
refused instead.
-/

namespace PeerRpc

/-- What the other side reads of details that are a value: null stands for none. -/
def Value.asDetails : Value → Option Value
  | null => none
  | v => some v.sorted

/-- The error as the other side reads it. -/
def RemoteError.received (e : RemoteError) : RemoteError :=
  { e with details := e.details.bind Value.asDetails }

theorem RemoteError.details_received (e : RemoteError) :
    e.received.details = (e.details.getD .null).asDetails := by
  show e.details.bind Value.asDetails = _
  cases e.details <;> rfl

namespace Message

/-- The message as the other side reads it. -/
def received : Message → Message
  | request id proxy method args => request id proxy method (args.map Value.sorted)
  | notification proxy method args => notification proxy method (args.map Value.sorted)
  | reply id v => reply id v.sorted
  | replyErr id err => replyErr id err.received
  | cancel id => cancel id

/-- Whether no payload has a long object key. -/
def Terse (m : Message) : Prop := ∀ v ∈ m.payloads, v.Terse

/-- Whether no payload holds an object that starts with a long key. -/
def FirstKeysShort (m : Message) : Prop := ∀ v ∈ m.payloads, v.FirstKeysShort

theorem Terse.firstKeysShort {m : Message} (h : m.Terse) : m.FirstKeysShort :=
  fun v hv => Value.Terse.firstKeysShort v (h v hv)

end Message

namespace Cbor

namespace Reader

open Cursor

variable {sure : Prop}

/-! ## Records -/

section Record

variable {δ φ : Type} (field? : String → Option φ) (title : φ → String) (has : δ → φ → Bool)
  (content : Nat → δ → φ → Reader δ) (nesting : Nat)

/-- Reads one field of a record. -/
def recordField (d : δ) : Reader δ := fun c => do
  let (s, c) ← identifier c
  match field? s with
  | none => do
    let ((), c) ← skip nesting c
    return (d, c)
  | some f =>
    if has d f then fail (.duplicateField (title f)) else content nesting d f c

variable {field? title has content nesting}

/-- A field that has not been filled is read. -/
theorem reads_recordField {d d' : δ} {f : φ} {bs : Bytes} (hfield : field? (title f) = some f)
    (hname : (Utf8.encode (title f)).length ≤ maxName) (hhas : has d f = false)
    (hread : Reads sure (content nesting d f) bs d') :
    Reads sure (recordField field? title has content nesting d) (encodeText (title f) ++ bs) d' := by
  intro c r hc
  rw [List.append_assoc] at hc
  refine ((opens_identifier sure hname).reads c _ hc).bind fun c' hc' => ?_
  show Lands sure d' r (match field? (title f) with
    | none => (skip nesting c').bind fun p => .ok (d, p.2)
    | some f => if has d f then fail (.duplicateField (title f)) else content nesting d f c')
  rw [hfield]
  show Lands sure d' r (if has d f then _ else content nesting d f c')
  rw [hhas]
  exact hread c' r hc'

/-- A record goes on with a field that has not been filled. -/
theorem Chain.field {d e d' : δ} {f : φ} {bs : Bytes} {parts : List Bytes}
    (hfield : field? (title f) = some f) (hname : (Utf8.encode (title f)).length ≤ maxName)
    (hhas : has d f = false) (hread : Reads sure (content nesting d f) bs e)
    (hrest : Chain sure (recordField field? title has content nesting) e parts d') :
    Chain sure (recordField field? title has content nesting) d
      ((encodeText (title f) ++ bs) :: parts) d' :=
  .cons (fun h => encodeText_ne_nil _ (List.append_eq_nil_iff.mp h).1)
    (reads_recordField hfield hname hhas hread) hrest

end Record

/-- A record is read once its head has been. -/
theorem encodeRecord_eq (fields : List (String × Bytes)) :
    encodeRecord fields = (Head.map (some fields.length)).encode ++
      (fields.map fun f => encodeText f.1 ++ f.2).flatten := by
  rw [encodeRecord, List.flatMap_def]

/-! ## Errors -/

theorem length_name (k : ErrorCode) : (Utf8.encode k.name).length ≤ maxName := by
  cases k <;> decide

theorem reads_errorCode (sure : Prop) (n : Nat) (k : ErrorCode) :
    Reads sure (errorCode (n + 1)) (encodeText k.name) k := by
  refine Opens.reads fun c r hc => ?_
  obtain ⟨c', huntagged, hc'⟩ := untagged_ahead hc (fits_text hc) nofun
  unfold errorCode named variant
  rw [huntagged]
  refine (opens_identifier sure (length_name k) _ _ (hc'.push _)).bind fun c'' hc'' => ?_
  have hfind : (ErrorCode.all.find? fun a => a.name = k.name) = some k := k.ofName?_name
  dsimp only
  rw [hfind]
  exact .ok hc''

/-- The head of a value is that of null only if the value is null. -/
theorem head_eq_null {v : Value}
    (h : v.head = .simple simpleNull ∨ v.head = .simple simpleUndefined) : v = .null := by
  cases v with
  | null => rfl
  | bool b => cases b <;> rcases h with h | h <;> cases h
  | int w =>
      rw [Value.head] at h
      split at h <;> rcases h with h | h <;> cases h
  | _ => rcases h with h | h <;> cases h

/-- Details are read, and null stands for none. -/
theorem reads_details (v : Value) (n : Nat) (hd : v.depth ≤ n) :
    Reads v.FirstKeysShort (option (value n)) (encodeValue v) v.asDetails := by
  rw [encodeValue_eq]
  refine Opens.reads fun c r hc => ?_
  obtain ⟨c', hpull, hc'⟩ := pull_head hc
  unfold option
  rw [hpull]
  show Lands _ _ r (if v.head = .simple simpleNull ∨ v.head = .simple simpleUndefined then
    pure (none, c') else (value n (c'.push v.head)).map fun p => (some p.1, p.2))
  split
  · -- null says that there are no details
    next hnull =>
      obtain rfl := head_eq_null hnull
      exact .ok hc'
  · next hother =>
      have hv : v.asDetails = some v.sorted := by
        cases v with
        | null => exact absurd (Or.inl rfl) hother
        | _ => rfl
      rw [hv]
      exact (opens_value n v hd _ _ (hc'.push _)).map some

theorem reads_remoteError (e : RemoteError) (n : Nat) (hn : 0 < n)
    (hd : ∀ v ∈ e.details, v.depth ≤ n) :
    Reads (∀ v ∈ e.details, v.FirstKeysShort) (remoteError (n + 1)) (encodeRemoteError e)
      e.received := by
  obtain ⟨n, rfl⟩ := Nat.exists_eq_succ_of_ne_zero (Nat.ne_of_gt hn)
  rw [encodeRemoteError, encodeRecord_eq]
  refine Opens.reads fun c r hc => ?_
  obtain ⟨c', huntagged, hc'⟩ := untagged_ahead hc (by decide : 3 < 2 ^ 64) nofun
  have hdepth : (e.details.getD .null).depth ≤ n + 1 := by
    cases hdetails : e.details with
    | none => exact Nat.le_add_left 1 n
    | some v => exact hd v hdetails
  have hshort : (∀ v ∈ e.details, v.FirstKeysShort) → (e.details.getD .null).FirstKeysShort := by
    intro hsure
    cases hdetails : e.details with
    | none => trivial
    | some v => exact hsure v hdetails
  have hchain : Chain (∀ v ∈ e.details, v.FirstKeysShort)
      (recordField ErrorField.ofName? ErrorField.name ErrorDraft.has errorField (n + 1)) {}
      [encodeText ErrorField.code.name ++ encodeText e.code.name,
        encodeText ErrorField.message.name ++ encodeText e.message,
        encodeText ErrorField.details.name ++ encodeValue (e.details.getD .null)]
      { code := some e.code, message := some e.message,
        details := some (e.details.getD .null).asDetails } := by
    -- each field finds those before it in the draft
    refine Chain.field (f := ErrorField.code) (e := { code := some e.code })
      (by decide) (by decide) rfl (fun c r hc => ?_) <|
      Chain.field (f := ErrorField.message)
        (e := { code := some e.code, message := some e.message })
        (by decide) (by decide) rfl (fun c r hc => ?_) <|
      Chain.field (f := ErrorField.details) (by decide) (by decide) rfl (fun c r hc => ?_) (.nil _)
    · exact (reads_errorCode _ n e.code c r hc).map fun x => ({ code := some x } : ErrorDraft)
    · exact (reads_string _ e.message c r hc).map fun x =>
        ({ code := some e.code, message := some x } : ErrorDraft)
    · exact ((reads_details (e.details.getD .null) (n + 1) hdepth c r hc).mono hshort).map fun x =>
        ({ code := some e.code, message := some e.message, details := some x } : ErrorDraft)
  have hfinish : ErrorDraft.finish ⟨some e.code, some e.message,
      some (e.details.getD .null).asDetails⟩ = .ok e.received := by
    rw [← e.details_received]
    rfl
  unfold remoteError
  rw [huntagged]
  refine (hchain.foldItems c' r hc').bind fun c'' hc'' => ?_
  dsimp only
  rw [hfinish]
  exact .ok hc''

/-! ## Messages -/

theorem reads_args (vs : List Value) (n : Nat) (hd : ∀ v ∈ vs, v.depth ≤ n) :
    Reads (∀ v ∈ vs, v.FirstKeysShort) (args (n + 1)) (encodeValue (.array vs))
      (vs.map Value.sorted) := by
  refine Opens.reads fun c r hc => ?_
  obtain ⟨c', huntagged, hc'⟩ := untagged_ahead hc (fits_head (v := .array vs) hc) nofun
  unfold args list
  rw [huntagged]
  exact reads_items (fun v hv c r hc => (reads_value n v (hd v hv) c r hc).mono fun hsure =>
    hsure v hv) c' r hc'

/-- The content of a message is read. -/
theorem reads_messageContent {k : MessageKind} {n : Nat} {d : MessageDraft} {m : Message}
    {parts : List Bytes}
    (hchain : Chain sure (recordField k.field? MessageField.name MessageDraft.has messageField n) {}
      parts d) (hfinish : d.finish k = .ok m) :
    Reads sure (messageContent k (n + 1)) ((Head.map (some parts.length)).encode ++ parts.flatten)
      m := by
  refine Opens.reads fun c r hc => ?_
  -- every field takes an octet at least
  have hfits : parts.length < 2 ^ 64 := by
    have hlt := length_lt_of_ahead hc
    have hle := length_le_flatten hchain.ne_nil
    rw [List.length_append] at hlt
    omega
  obtain ⟨c', hpull, hc'⟩ := pull_ahead hc hfits
  unfold messageContent anyItem
  rw [hpull]
  refine (hchain.foldItems c' r hc').bind fun c'' hc'' => ?_
  dsimp only
  rw [hfinish]
  exact .ok hc''

/-- The fields of a message as they are written. -/
def messageParts (m : Message) : List Bytes :=
  (encodeMessageFields m).map fun f => encodeText f.1.name ++ f.2

theorem field?_name (k : MessageKind) : ∀ f ∈ k.fields, k.field? f.name = some f := by
  cases k <;> decide

theorem length_fieldName (f : MessageField) : (Utf8.encode f.name).length ≤ maxName := by
  cases f <;> decide

theorem reads_idField (sure : Prop) (n : Nat) (d : MessageDraft) (id : RequestId) :
    Reads sure (messageField n d .id) (encodeInt id.val.toNat) { d with id := some id } :=
  fun c r hc => (reads_requestId sure id c r hc).map fun x => { d with id := some x }

theorem reads_proxyField (sure : Prop) (n : Nat) (d : MessageDraft) (proxy : ProxyId) :
    Reads sure (messageField n d .proxy) (encodeInt proxy.val.toNat)
      { d with proxy := some proxy } :=
  fun c r hc => (reads_proxyId sure proxy c r hc).map fun x => { d with proxy := some x }

theorem reads_methodField (sure : Prop) (n : Nat) (d : MessageDraft) (method : String) :
    Reads sure (messageField n d .method) (encodeText method) { d with method := some method } :=
  fun c r hc => (reads_string sure method c r hc).map fun x => { d with method := some x }

/-- A message goes on with a field of its kind that has not been filled. -/
theorem Chain.messageField {k : MessageKind} {n : Nat} {d e d' : MessageDraft} {f : MessageField}
    {bs : Bytes} {parts : List Bytes} (hf : f ∈ k.fields) (hhas : d.has f = false)
    (hread : Reads sure (messageField n d f) bs e)
    (hrest : Chain sure (recordField k.field? MessageField.name MessageDraft.has messageField n) e
      parts d') :
    Chain sure (recordField k.field? MessageField.name MessageDraft.has messageField n) d
      ((encodeText f.name ++ bs) :: parts) d' :=
  Chain.field (field?_name k f hf) (length_fieldName f) hhas hread hrest

/-- The fields of a message are read one after the other. -/
theorem chain_message (m : Message) (n : Nat) (hd : ∀ v ∈ m.payloads, v.depth ≤ n) :
    ∃ d, Chain m.FirstKeysShort
        (recordField m.kind.field? MessageField.name MessageDraft.has messageField (n + 2)) {}
        (messageParts m) d ∧ d.finish m.kind = .ok m.received := by
  -- each kind fills its own fields of the draft and leaves the others empty
  cases m with
  | request id proxy method args =>
      refine ⟨⟨some id, some proxy, some method, some (args.map Value.sorted), none, none⟩, ?_, rfl⟩
      refine Chain.messageField (k := .request) (f := .id) (by decide) rfl
          (reads_idField _ _ _ id) <|
        Chain.messageField (k := .request) (f := .proxy) (by decide) rfl
          (reads_proxyField _ _ _ proxy) <|
        Chain.messageField (k := .request) (f := .method) (by decide) rfl
          (reads_methodField _ _ _ method) <|
        Chain.messageField (k := .request) (f := .args) (by decide) rfl (fun c r hc => ?_) (.nil _)
      exact (reads_args args (n + 1) (fun v hv => Nat.le_succ_of_le (hd v hv)) c r hc).map
        fun x => (⟨some id, some proxy, some method, some x, none, none⟩ : MessageDraft)
  | notification proxy method args =>
      refine ⟨⟨none, some proxy, some method, some (args.map Value.sorted), none, none⟩, ?_, rfl⟩
      refine Chain.messageField (k := .notification) (f := .proxy) (by decide) rfl
          (reads_proxyField _ _ _ proxy) <|
        Chain.messageField (k := .notification) (f := .method) (by decide) rfl
          (reads_methodField _ _ _ method) <|
        Chain.messageField (k := .notification) (f := .args) (by decide) rfl
          (fun c r hc => ?_) (.nil _)
      exact (reads_args args (n + 1) (fun v hv => Nat.le_succ_of_le (hd v hv)) c r hc).map
        fun x => (⟨none, some proxy, some method, some x, none, none⟩ : MessageDraft)
  | reply id v =>
      refine ⟨⟨some id, none, none, none, some v.sorted, none⟩, ?_, rfl⟩
      refine Chain.messageField (k := .reply) (f := .id) (by decide) rfl (reads_idField _ _ _ id) <|
        Chain.messageField (k := .reply) (f := .value) (by decide) rfl (fun c r hc => ?_) (.nil _)
      have hv := hd v List.mem_cons_self
      exact ((reads_value (n + 2) v (by omega) c r hc).mono fun hsure =>
        hsure v List.mem_cons_self).map
          fun x => (⟨some id, none, none, none, some x, none⟩ : MessageDraft)
  | replyErr id err =>
      refine ⟨⟨some id, none, none, none, none, some err.received⟩, ?_, rfl⟩
      refine Chain.messageField (k := .replyErr) (f := .id) (by decide) rfl
          (reads_idField _ _ _ id) <|
        Chain.messageField (k := .replyErr) (f := .error) (by decide) rfl
          (fun c r hc => ?_) (.nil _)
      have hdetails : ∀ v ∈ err.details, v.depth ≤ n + 1 := fun v hv =>
        Nat.le_succ_of_le (hd v (Option.mem_toList.mpr hv))
      exact ((reads_remoteError err (n + 1) (Nat.succ_pos n) hdetails c r hc).mono
        fun hsure v hv => hsure v (Option.mem_toList.mpr hv)).map
          fun x => (⟨some id, none, none, none, none, some x⟩ : MessageDraft)
  | cancel id =>
      exact ⟨⟨some id, none, none, none, none, none⟩,
        Chain.messageField (k := .cancel) (f := .id) (by decide) rfl
          (reads_idField _ _ _ id) (.nil _), rfl⟩

theorem encodeMessage_eq (m : Message) :
    Cbor.encodeMessage m = (Head.map (some 1)).encode ++ (encodeText m.kind.name ++
      ((Head.map (some (messageParts m).length)).encode ++ (messageParts m).flatten)) := by
  rw [Cbor.encodeMessage, encodeRecord_eq, encodeRecord_eq, messageParts, List.map_map,
    List.length_map, List.length_map]
  simp only [List.map_cons, List.map_nil, List.flatten_cons, List.flatten_nil, List.append_nil,
    List.length_singleton, Function.comp_def]

theorem length_title (k : MessageKind) : (Utf8.encode k.name).length ≤ maxName := by
  cases k <;> decide

/-- **A message is read back.** -/
theorem reads_message (m : Message) (n : Nat) (hd : ∀ v ∈ m.payloads, v.depth ≤ n) :
    Reads m.FirstKeysShort (message (n + 4)) (Cbor.encodeMessage m) m.received := by
  obtain ⟨d, hchain, hfinish⟩ := chain_message m n hd
  rw [encodeMessage_eq]
  refine Opens.reads fun c r hc => ?_
  obtain ⟨c', huntagged, hc'⟩ := untagged_ahead hc (by decide : 1 < 2 ^ 64) nofun
  rw [List.append_assoc] at hc'
  unfold message variant
  rw [huntagged]
  have hidentifier := (opens_identifier m.FirstKeysShort (length_title m.kind)).reads c' _ hc'
  refine hidentifier.bind fun c'' hc'' => ?_
  have hkind : MessageKind.ofName? m.kind.name = some m.kind := m.kind.ofName?_name
  dsimp only
  rw [hkind]
  exact reads_messageContent hchain hfinish c'' r hc''

end Reader

end Cbor

namespace Codec

/-- **The message at the front of some octets is decoded**, unless it is refused for an object that
starts with a long key. -/
theorem decodeMessage_append (m : Message) (rest : Bytes)
    (hd : ∀ v ∈ m.payloads, v.depth ≤ maxDepth)
    (hlen : (Cbor.encodeMessage m ++ rest).length < 2 ^ 64) :
    decodeMessage (Cbor.encodeMessage m ++ rest) = .ok m.received ∨
      ¬m.FirstKeysShort ∧ ∃ err, decodeMessage (Cbor.encodeMessage m ++ rest) = .error err := by
  have hat : ({ rest := Cbor.encodeMessage m ++ rest } : Cbor.Cursor).At none
      (Cbor.encodeMessage m ++ rest) :=
    ⟨rfl, rfl, Nat.lt_succ_self _, hlen⟩
  -- of the levels that the reader allows a message needs four for itself
  have hdeep : ∀ v ∈ m.payloads, v.depth ≤ 252 := fun v hv => Nat.le_trans (hd v hv) (by decide)
  unfold decodeMessage decode Shape.decode
  rcases Cbor.Reader.reads_message m 252 hdeep _ _ hat with ⟨c, hread, -⟩ | ⟨hshort, err, herr⟩
  · left
    have h : Shape.message.reader Cbor.maxNesting { rest := Cbor.encodeMessage m ++ rest } =
        .ok (m.received, c) := hread
    rw [h]
    rfl
  · right
    have h : Shape.message.reader Cbor.maxNesting { rest := Cbor.encodeMessage m ++ rest } =
        .error err := herr
    rw [h]
    exact ⟨hshort, _, rfl⟩

/-- **A message that can be encoded is decoded**, unless the other side refuses it for a long object
key. -/
theorem decodeMessage_encodeMessage (m : Message) (hd : ∀ v ∈ m.payloads, v.depth ≤ maxDepth)
    (hlen : (Cbor.encodeMessage m).length < 2 ^ 64) :
    decodeMessage (Cbor.encodeMessage m) = .ok m.received ∨
      ¬m.Terse ∧ ∃ err, decodeMessage (Cbor.encodeMessage m) = .error err := by
  have h := decodeMessage_append m [] hd (by rwa [List.append_nil])
  rw [List.append_nil] at h
  exact h.imp_right (And.imp_left fun hno hterse => hno hterse.firstKeysShort)

end Codec

end PeerRpc
