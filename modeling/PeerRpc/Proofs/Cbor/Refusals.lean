import PeerRpc.Proofs.Cbor.Messages

/-!
# PeerRpc.Proofs.Cbor.Refusals -- messages that were written and are refused

An object that starts with a long key cannot be read as a value, however deep it lies inside a
message. What comes before it does not matter: whether a reader gets past it or not, it does not
get past the key (`Lands.fails`). So the argument goes from the inside out and needs no first place
where reading fails: a container is refused if some part of it is (`Stuck`), a value if some object
inside it starts with a long key (`Reader.balks_value`), a message if some payload does
(`Reader.refuses_message`).

Together with `Codec.decodeMessage_append` this tells the messages that can be decoded from those
that cannot.
-/

namespace PeerRpc

namespace Cbor

open Cursor

variable {α β : Type} {sure : Prop}

/-- Reading has ended with an error. -/
def Fails (x : Except DecodeError (α × Cursor)) : Prop := ∃ err, x = .error err

/-- The reader fails in front of these octets, whatever follows them. -/
def Refuses (p : Reader α) (bs : Bytes) : Prop := ∀ c r, c.At none (bs ++ r) → Fails (p c)

/-- The reader fails in front of this head and these octets, even if the head has been taken
back. -/
def Balks (p : Reader α) (h : Head) (bs : Bytes) : Prop := ∀ c r, c.Ahead h (bs ++ r) → Fails (p c)

theorem Fails.bind {x : Except DecodeError (α × Cursor)} (hx : Fails x)
    (f : α × Cursor → Except DecodeError (β × Cursor)) : Fails (x >>= f) := by
  obtain ⟨err, rfl⟩ := hx
  exact ⟨err, rfl⟩

theorem Fails.map {x : Except DecodeError (α × Cursor)} (hx : Fails x)
    (f : α × Cursor → β × Cursor) : Fails (x.map f) := by
  obtain ⟨err, rfl⟩ := hx
  exact ⟨err, rfl⟩

/-- Whether or not a reader has come to its result, what goes on from there fails. -/
theorem Lands.fails {a : α} {r : Bytes} {x : Except DecodeError (α × Cursor)}
    {f : α × Cursor → Except DecodeError (β × Cursor)} (hx : Lands sure a r x)
    (hf : ∀ c, c.At none r → Fails (f (a, c))) : Fails (x >>= f) := by
  rcases hx with ⟨c, rfl, hc⟩ | ⟨-, err, rfl⟩
  · exact hf c hc
  · exact ⟨err, rfl⟩

theorem Balks.refuses {p : Reader α} {h : Head} {bs : Bytes} (hp : Balks p h bs) :
    Refuses p (h.encode ++ bs) := by
  intro c r hc
  rw [List.append_assoc] at hc
  exact hp c r (Or.inr hc)

/-! ## Containers -/

/-- The parts of a container of which one is refused. -/
inductive Stuck (item : α → Reader α) : α → List Bytes → Prop
  | here {a : α} {bs : Bytes} {parts : List Bytes} (hbs : Refuses (item a) bs) :
      Stuck item a (bs :: parts)
  | later {sure : Prop} {a b : α} {bs : Bytes} {parts : List Bytes}
      (hread : Reads sure (item a) bs b) (hrest : Stuck item b parts) : Stuck item a (bs :: parts)

theorem Stuck.loop {item : α → Reader α} {a : α} {parts : List Bytes} (h : Stuck item a parts)
    (fuel : Nat) {c : Cursor} {r : Bytes} (hc : c.At none (parts.flatten ++ r)) :
    Fails (Reader.loop item fuel (some parts.length) a c) := by
  -- along the parts: one that is read leaves the loop in front of the rest, and the refused one ends
  -- it; a loop without fuel fails anyway
  induction h generalizing fuel c with
  | @here a bs parts hbs =>
      cases fuel with
      | zero => exact ⟨_, rfl⟩
      | succ fuel =>
          rw [List.flatten_cons, List.append_assoc] at hc
          exact (hbs _ _ hc).bind fun p => Reader.loop item fuel (some parts.length) p.1 p.2
  | @later sure a b bs parts hread hrest ih =>
      cases fuel with
      | zero => exact ⟨_, rfl⟩
      | succ fuel =>
          rw [List.flatten_cons, List.append_assoc] at hc
          show Fails ((item a c).bind fun p => Reader.loop item fuel (some parts.length) p.1 p.2)
          exact (hread _ _ hc).fails fun c' hc' => ih fuel hc'

/-- A container is refused if one of its parts is. -/
theorem Stuck.foldItems {item : α → Reader α} {a : α} {parts : List Bytes}
    (h : Stuck item a parts) :
    Refuses (Reader.foldItems item (some parts.length) a) parts.flatten :=
  fun c _ hc => h.loop (c.bound + 1) hc

/-- Of parts that are all alike, one that is refused is enough. -/
theorem Stuck.of_mem {item : α → Reader α} {octets : β → Bytes} {g : α → β → α} {xs : List β}
    {x : β} (hx : x ∈ xs) (hrefused : ∀ a, Refuses (item a) (octets x))
    (hxs : ∀ y ∈ xs, ∀ a, Reads sure (item a) (octets y) (g a y)) (a : α) :
    Stuck item a (xs.map octets) := by
  induction xs generalizing a with
  | nil => exact absurd hx List.not_mem_nil
  | cons y ys ih =>
      rcases List.mem_cons.mp hx with rfl | hx
      · exact .here (hrefused a)
      · have hrest : ∀ z ∈ ys, ∀ a, Reads sure (item a) (octets z) (g a z) := fun z hz =>
          hxs z (List.mem_cons_of_mem y hz)
        exact .later (hxs y List.mem_cons_self a) (ih hx hrest _)

namespace Reader

/-! ## Values -/

/-- A name that is too long is refused. -/
theorem refuses_name {s : String} (hs : ¬(Utf8.encode s).length ≤ maxName) :
    Refuses name (encodeText s) := by
  refine Balks.refuses fun c r hc => ?_
  obtain ⟨c', huntagged, hc'⟩ := untagged_ahead hc (fits_text hc) nofun
  unfold name
  rw [huntagged]
  show Fails (if (Utf8.encode s).length ≤ maxName then
    shortText c.offset (Utf8.encode s).length c' else refuse _ "str")
  rw [if_neg hs]
  exact ⟨_, rfl⟩

/-- Items of which one is refused. -/
theorem refuses_items {item : Reader Value} {vs : List Value} {v : Value} {g : Value → Value}
    (hv : v ∈ vs) (hrefused : Refuses item (encodeValue v))
    (hitem : ∀ w ∈ vs, Reads sure item (encodeValue w) (g w)) :
    Refuses (items item (some vs.length)) (encodeItems vs) := by
  intro c r hc
  have hstuck : Stuck (fun acc c => (item c).map fun p => (p.1 :: acc, p.2)) []
      (vs.map encodeValue) :=
    Stuck.of_mem (g := fun acc w => g w :: acc) hv (fun acc c r hc => (hrefused c r hc).map _)
      (fun w hw acc c r hc => (hitem w hw c r hc).map (· :: acc)) []
  rw [encodeItems_eq] at hc
  have hfails := hstuck.foldItems c r hc
  rw [List.length_map] at hfails
  exact hfails.map _

/-- Fields of which some value is refused, behind the first one. -/
theorem stuck_fields {item : Reader Value} {fields : Keyed Value} {g : Value → Value}
    {e : String × Value} (he : e ∈ fields) (hrefused : Refuses item (encodeValue e.2))
    (hitem : ∀ e ∈ fields, Reads sure item (encodeValue e.2) (g e.2)) (acc : Keyed Value) :
    Stuck (fun acc c => do
      let (k, c) ← string c
      let (v, c) ← item c
      return (Keyed.insert k v acc, c)) acc
      (fields.map fun e => encodeText e.1 ++ encodeValue e.2) := by
  refine Stuck.of_mem (g := fun acc e => Keyed.insert e.1 (g e.2) acc) he ?_
    (fun y hy => reads_field (hitem y hy)) acc
  intro acc c r hc
  rw [List.append_assoc] at hc
  exact (reads_string True e.1 c _ hc).fails fun c' hc' => (hrefused c' r hc').bind _

/-- Fields of which the first key or some value is refused. -/
theorem refuses_objectFields {item : Reader Value} {fields : Keyed Value} {g : Value → Value}
    (hrefused : (∃ e ∈ fields.head?, ¬(Utf8.encode e.1).length ≤ maxName) ∨
      ∃ e ∈ fields, Refuses item (encodeValue e.2))
    (hitem : ∀ e ∈ fields, Reads sure item (encodeValue e.2) (g e.2)) :
    Refuses (objectFields item (some fields.length)) (encodeFields fields) := by
  rw [encodeFields_eq]
  cases fields with
  | nil =>
      rcases hrefused with ⟨e, he, -⟩ | ⟨e, he, -⟩
      · exact absurd he nofun
      · exact absurd he List.not_mem_nil
  | cons first rest =>
      intro c r hc
      rw [List.map_cons, List.flatten_cons, List.append_assoc, List.append_assoc] at hc
      show Fails ((name c).bind fun p => (item p.2).bind fun q =>
        foldItems _ (some rest.length) [(p.1, q.1)] q.2)
      -- only the first key is read as a name, so only its length matters
      by_cases hkey : (Utf8.encode first.1).length ≤ maxName
      · refine Lands.fails (reads_name first.1 c _ hc) fun c₁ hc₁ => ?_
        obtain ⟨e, he, hvalue⟩ : ∃ e ∈ first :: rest, Refuses item (encodeValue e.2) := by
          refine hrefused.resolve_left ?_
          rintro ⟨e, he, hlong⟩
          obtain rfl : first = e := Option.some.inj he
          exact hlong hkey
        rcases List.mem_cons.mp he with rfl | he
        · exact (hvalue c₁ _ hc₁).bind _
        · -- the value lies behind the first one, which may be read or not
          refine Lands.fails (hitem first List.mem_cons_self c₁ _ hc₁) fun c₂ hc₂ => ?_
          have hstuck := stuck_fields he hvalue
            (fun y hy => hitem y (List.mem_cons_of_mem _ hy)) [(first.1, g first.2)]
          have hfails := hstuck.foldItems c₂ r hc₂
          rw [List.length_map] at hfails
          exact hfails
      · exact (refuses_name hkey c _ hc).bind _

/-- **A value in which an object starts with a long key is refused.** -/
theorem balks_value (n : Nat) (v : Value) (hd : v.depth ≤ n) (hlong : ¬v.FirstKeysShort) :
    Balks (value n) v.head v.body := by
  -- on the nesting that the reader allows, of which the value needs no more than there is
  induction n generalizing v with
  | zero =>
      have := v.depth_pos
      omega
  | succ n ih =>
      intro c r hc
      cases v with
      | array items =>
          have hdepth := (Value.depthOfItems_le items n).mp (Nat.le_of_succ_le_succ hd)
          obtain ⟨v, hv, hlong⟩ : ∃ v ∈ items, ¬v.FirstKeysShort := by
            have h := mt (Value.itemsFirstKeysShort_iff items).mpr hlong
            simpa using h
          have hrefused : Refuses (value n) (encodeValue v) := by
            rw [encodeValue_eq]
            exact (ih v (hdepth v hv) hlong).refuses
          have hreads (w : Value) (hw : w ∈ items) :
              Reads (∀ w ∈ items, w.FirstKeysShort) (value n) (encodeValue w) w.sorted :=
            fun c r hc => (reads_value n w (hdepth w hw) c r hc).mono fun hsure => hsure w hw
          obtain ⟨c', hpull, hc'⟩ := pull_head (v := .array items) hc
          rw [value]
          unfold anyItem
          rw [hpull]
          exact (refuses_items hv hrefused hreads c' r hc').map _
      | object fields =>
          have hdepth := (Value.depthOfItems_le (fields.map Prod.snd) n).mp
            (Value.depthOfFields_eq fields ▸ Nat.le_of_succ_le_succ hd)
          have hrefused : (∃ e ∈ fields.head?, ¬(Utf8.encode e.1).length ≤ maxName) ∨
              ∃ e ∈ fields, Refuses (value n) (encodeValue e.2) := by
            -- the long key is the first one of this object, or lies in one of its values
            by_cases hfirst : ∀ e ∈ fields.head?, (Utf8.encode e.1).length ≤ maxName
            · right
              obtain ⟨e, he, hlong⟩ : ∃ e ∈ fields, ¬e.2.FirstKeysShort := by
                have h := mt (Value.fieldsFirstKeysShort_iff fields).mpr fun h => hlong ⟨hfirst, h⟩
                simpa using h
              refine ⟨e, he, ?_⟩
              rw [encodeValue_eq]
              exact (ih e.2 (hdepth e.2 (List.mem_map_of_mem he)) hlong).refuses
            · left
              simpa using hfirst
          have hreads (e : String × Value) (he : e ∈ fields) :
              Reads (∀ e ∈ fields, e.2.FirstKeysShort) (value n) (encodeValue e.2) e.2.sorted :=
            fun c r hc => (reads_value n e.2 (hdepth e.2 (List.mem_map_of_mem he)) c r hc).mono
              fun hsure => hsure e he
          obtain ⟨c', hpull, hc'⟩ := pull_head (v := .object fields) hc
          rw [value]
          unfold anyItem
          rw [hpull]
          exact (refuses_objectFields hrefused hreads c' r hc').map _
      | _ => exact absurd trivial hlong

theorem refuses_value (n : Nat) (v : Value) (hd : v.depth ≤ n) (hlong : ¬v.FirstKeysShort) :
    Refuses (value n) (encodeValue v) := by
  rw [encodeValue_eq]
  exact (balks_value n v hd hlong).refuses

/-! ## Records -/

section Record

variable {δ φ : Type} {field? : String → Option φ} {title : φ → String} {has : δ → φ → Bool}
  {content : Nat → δ → φ → Reader δ} {nesting : Nat}

/-- A field that has not been filled is refused if its content is. -/
theorem refuses_recordField {d : δ} {f : φ} {bs : Bytes} (hfield : field? (title f) = some f)
    (hname : (Utf8.encode (title f)).length ≤ maxName) (hhas : has d f = false)
    (hrefused : Refuses (content nesting d f) bs) :
    Refuses (recordField field? title has content nesting d) (encodeText (title f) ++ bs) := by
  intro c r hc
  rw [List.append_assoc] at hc
  refine Lands.fails ((opens_identifier True hname).reads c _ hc) fun c' hc' => ?_
  dsimp only
  rw [hfield]
  dsimp only
  rw [hhas]
  exact hrefused c' r hc'

end Record

/-- Details in which an object starts with a long key are refused. -/
theorem refuses_details (v : Value) (n : Nat) (hd : v.depth ≤ n) (hlong : ¬v.FirstKeysShort) :
    Refuses (option (value n)) (encodeValue v) := by
  rw [encodeValue_eq]
  refine Balks.refuses fun c r hc => ?_
  obtain ⟨c', hpull, hc'⟩ := pull_head hc
  unfold option
  rw [hpull]
  show Fails (if v.head = .simple simpleNull ∨ v.head = .simple simpleUndefined then
    pure (none, c') else (value n (c'.push v.head)).map fun p => (some p.1, p.2))
  split
  · next hnull =>
      obtain rfl := head_eq_null hnull
      exact absurd trivial hlong
  · exact (balks_value n v hd hlong _ _ (hc'.push _)).map _

theorem refuses_remoteError (e : RemoteError) (n : Nat) {v : Value} (hv : e.details = some v)
    (hd : v.depth ≤ n) (hlong : ¬v.FirstKeysShort) :
    Refuses (remoteError (n + 1)) (encodeRemoteError e) := by
  have hpos := v.depth_pos
  obtain ⟨n, rfl⟩ := Nat.exists_eq_succ_of_ne_zero (Nat.ne_of_gt (Nat.lt_of_lt_of_le hpos hd))
  rw [encodeRemoteError, encodeRecord_eq, hv]
  refine Balks.refuses fun c r hc => ?_
  obtain ⟨c', huntagged, hc'⟩ := untagged_ahead hc (by decide : 3 < 2 ^ 64) fun _ => Head.noConfusion
  -- code and message are read, and the details behind them are refused
  have hstuck : Stuck
      (recordField ErrorField.ofName? ErrorField.name ErrorDraft.has errorField (n + 1)) {}
      [encodeText ErrorField.code.name ++ encodeText e.code.name,
        encodeText ErrorField.message.name ++ encodeText e.message,
        encodeText ErrorField.details.name ++ encodeValue v] := by
    have hcode : Reads True (errorField (n + 1) {} .code) (encodeText e.code.name)
        { code := some e.code } :=
      fun c r hc => (reads_errorCode _ n e.code c r hc).map fun x =>
        ({ code := some x } : ErrorDraft)
    have hmessage : Reads True (errorField (n + 1) { code := some e.code } .message)
        (encodeText e.message) { code := some e.code, message := some e.message } :=
      fun c r hc => (reads_string _ e.message c r hc).map fun x =>
        ({ code := some e.code, message := some x } : ErrorDraft)
    refine .later (reads_recordField (f := ErrorField.code) (by decide) (by decide) rfl hcode) <|
      .later (reads_recordField (f := ErrorField.message) (by decide) (by decide) rfl hmessage) <|
      .here (refuses_recordField (f := ErrorField.details) (by decide) (by decide) rfl ?_)
    exact fun c r hc => (refuses_details v (n + 1) hd hlong c r hc).map _
  unfold remoteError
  rw [huntagged]
  exact (hstuck.foldItems c' r hc').bind _

/-! ## Messages -/

theorem refuses_args (vs : List Value) (n : Nat) (hd : ∀ v ∈ vs, v.depth ≤ n) {v : Value}
    (hv : v ∈ vs) (hlong : ¬v.FirstKeysShort) :
    Refuses (args (n + 1)) (encodeValue (.array vs)) := by
  have hreads (w : Value) (hw : w ∈ vs) :
      Reads (∀ w ∈ vs, w.FirstKeysShort) (value n) (encodeValue w) w.sorted :=
    fun c r hc => (reads_value n w (hd w hw) c r hc).mono fun hsure => hsure w hw
  refine Balks.refuses fun c r hc => ?_
  obtain ⟨c', huntagged, hc'⟩ := untagged_ahead hc (fits_head (v := .array vs) hc) nofun
  unfold args list
  rw [huntagged]
  exact refuses_items hv (refuses_value n v (hd v hv) hlong) hreads c' r hc'

/-- The content of a message is refused. -/
theorem refuses_messageContent {k : MessageKind} {n : Nat} {parts : List Bytes}
    (hne : ∀ bs ∈ parts, bs ≠ [])
    (hstuck : Stuck (recordField k.field? MessageField.name MessageDraft.has messageField n) {}
      parts) :
    Refuses (messageContent k (n + 1))
      ((Head.map (some parts.length)).encode ++ parts.flatten) := by
  refine Balks.refuses fun c r hc => ?_
  have hfits : parts.length < 2 ^ 64 := by
    have hlt := length_lt_of_ahead hc
    have hle := length_le_flatten hne
    rw [List.length_append] at hlt
    omega
  obtain ⟨c', hpull, hc'⟩ := pull_ahead hc hfits
  unfold messageContent anyItem
  rw [hpull]
  exact (hstuck.foldItems c' r hc').bind _

/-- A message is refused behind a field of its kind that is read. -/
theorem Stuck.behindField {k : MessageKind} {n : Nat} {d e : MessageDraft} {f : MessageField}
    {bs : Bytes} {parts : List Bytes} (hf : f ∈ k.fields) (hhas : d.has f = false)
    (hread : Reads True (messageField n d f) bs e)
    (hrest : Stuck (recordField k.field? MessageField.name MessageDraft.has messageField n) e
      parts) :
    Stuck (recordField k.field? MessageField.name MessageDraft.has messageField n) d
      ((encodeText f.name ++ bs) :: parts) :=
  .later (reads_recordField (field?_name k f hf) (length_fieldName f) hhas hread) hrest

/-- A message is refused at a field of its kind that is. -/
theorem Stuck.atField {k : MessageKind} {n : Nat} {d : MessageDraft} {f : MessageField}
    {bs : Bytes} {parts : List Bytes} (hf : f ∈ k.fields) (hhas : d.has f = false)
    (hrefused : Refuses (messageField n d f) bs) :
    Stuck (recordField k.field? MessageField.name MessageDraft.has messageField n) d
      ((encodeText f.name ++ bs) :: parts) :=
  .here (refuses_recordField (field?_name k f hf) (length_fieldName f) hhas hrefused)

/-- The fields of a message are refused at the one that holds its payloads. -/
theorem stuck_message (m : Message) (n : Nat) (hd : ∀ v ∈ m.payloads, v.depth ≤ n)
    (hlong : ¬m.FirstKeysShort) :
    Stuck (recordField m.kind.field? MessageField.name MessageDraft.has messageField (n + 2)) {}
      (messageParts m) := by
  obtain ⟨v, hv, hfirst⟩ : ∃ v ∈ m.payloads, ¬v.FirstKeysShort := by
    simpa [Message.FirstKeysShort] using hlong
  have hdv := hd v hv
  -- each kind of message has its payloads last, behind fields that are always read
  cases m with
  | request id proxy method args =>
      refine Stuck.behindField (k := .request) (f := .id) (by decide) rfl
          (reads_idField _ _ _ id) <|
        Stuck.behindField (k := .request) (f := .proxy) (by decide) rfl
          (reads_proxyField _ _ _ proxy) <|
        Stuck.behindField (k := .request) (f := .method) (by decide) rfl
          (reads_methodField _ _ _ method) <|
        Stuck.atField (k := .request) (f := .args) (by decide) rfl fun c r hc => ?_
      exact (refuses_args args (n + 1) (fun w hw => Nat.le_succ_of_le (hd w hw)) hv hfirst
        c r hc).map _
  | notification proxy method args =>
      refine Stuck.behindField (k := .notification) (f := .proxy) (by decide) rfl
          (reads_proxyField _ _ _ proxy) <|
        Stuck.behindField (k := .notification) (f := .method) (by decide) rfl
          (reads_methodField _ _ _ method) <|
        Stuck.atField (k := .notification) (f := .args) (by decide) rfl fun c r hc => ?_
      exact (refuses_args args (n + 1) (fun w hw => Nat.le_succ_of_le (hd w hw)) hv hfirst
        c r hc).map _
  | reply id w =>
      obtain rfl := List.mem_singleton.mp hv
      refine Stuck.behindField (k := .reply) (f := .id) (by decide) rfl (reads_idField _ _ _ id) <|
        Stuck.atField (k := .reply) (f := .value) (by decide) rfl fun c r hc => ?_
      exact (refuses_value (n + 2) v (by omega) hfirst c r hc).map _
  | replyErr id err =>
      have hdetails : err.details = some v := Option.mem_toList.mp hv
      refine Stuck.behindField (k := .replyErr) (f := .id) (by decide) rfl
          (reads_idField _ _ _ id) <|
        Stuck.atField (k := .replyErr) (f := .error) (by decide) rfl fun c r hc => ?_
      exact (refuses_remoteError err (n + 1) hdetails (by omega) hfirst c r hc).map _
  | cancel id => exact absurd hv List.not_mem_nil

/-- **A message with an object that starts with a long key is refused.** -/
theorem refuses_message (m : Message) (n : Nat) (hd : ∀ v ∈ m.payloads, v.depth ≤ n)
    (hlong : ¬m.FirstKeysShort) : Refuses (message (n + 4)) (Cbor.encodeMessage m) := by
  have hne : ∀ bs ∈ messageParts m, bs ≠ [] := by
    intro bs hbs
    obtain ⟨f, -, rfl⟩ := List.mem_map.mp hbs
    exact fun h => encodeText_ne_nil _ (List.append_eq_nil_iff.mp h).1
  rw [encodeMessage_eq]
  refine Balks.refuses fun c r hc => ?_
  obtain ⟨c', huntagged, hc'⟩ := untagged_ahead hc (by decide : 1 < 2 ^ 64) nofun
  rw [List.append_assoc] at hc'
  unfold message variant
  rw [huntagged]
  dsimp only [bind, Except.bind]
  have hidentifier := (opens_identifier True (length_title m.kind)).reads c' _ hc'
  refine hidentifier.fails fun c'' hc'' => ?_
  have hkind : MessageKind.ofName? m.kind.name = some m.kind := m.kind.ofName?_name
  dsimp only
  rw [hkind]
  exact refuses_messageContent hne (stuck_message m n hd hlong) c'' r hc''

end Reader

end Cbor

namespace Codec

/-- A message with an object that starts with a long key is not decoded. -/
theorem decodeMessage_of_long (m : Message) (rest : Bytes)
    (hd : ∀ v ∈ m.payloads, v.depth ≤ maxDepth)
    (hlen : (Cbor.encodeMessage m ++ rest).length < 2 ^ 64) (hlong : ¬m.FirstKeysShort) :
    ∃ err, decodeMessage (Cbor.encodeMessage m ++ rest) = .error err := by
  have hat : ({ rest := Cbor.encodeMessage m ++ rest } : Cbor.Cursor).At none
      (Cbor.encodeMessage m ++ rest) :=
    ⟨rfl, rfl, Nat.lt_succ_self _, hlen⟩
  have hdeep : ∀ v ∈ m.payloads, v.depth ≤ 252 := fun v hv => Nat.le_trans (hd v hv) (by decide)
  obtain ⟨err, herr⟩ := Cbor.Reader.refuses_message m 252 hdeep hlong _ _ hat
  have h : Shape.message.reader Cbor.maxNesting { rest := Cbor.encodeMessage m ++ rest } =
      .error err := herr
  unfold decodeMessage decode Shape.decode
  rw [h]
  exact ⟨_, rfl⟩

end Codec

end PeerRpc
