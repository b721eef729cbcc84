import PeerRpc.Proofs.Cbor.Refusals
import PeerRpc.Proofs.Codec.Size

/-!
# PeerRpc.Proofs.Codec.Delivery -- whether and how an encoded message arrives

A message whose object keys are short arrives as it was sent, whatever octets follow it
(`Codec.delivery`): kind, ids, method and every payload value are the same, an integer stays the
integer and a float the float that it was, and only error details that are null count as absent
(`Message.delivered`). The reader puts the fields of an object in order, so the message comes back
unchanged because every object is built with its fields in order (`Message.received_of_ordered`).

The sender checks how deep payloads are nested, and that is not all that the reader asks for: the
first key of an object must not be longer than a name. `Codec.decodable_iff` says that this is the
only difference, `Codec.undecodable_long_key` that it is one.
-/

namespace PeerRpc

/-- The error as it arrives: details that are null count as absent. -/
def RemoteError.delivered (e : RemoteError) : RemoteError :=
  match e.details with
  | some .null => { e with details := none }
  | _ => e

/-- The message as it arrives. -/
def Message.delivered : Message → Message
  | .replyErr id e => .replyErr id e.delivered
  | m => m

/-- Details that are in order and not null arrive as they are. -/
theorem Value.asDetails_of_ordered {v : Value} (h : v.Ordered) (hnull : v ≠ .null) :
    v.asDetails = some v := by
  have hsorted := v.sorted_eq_self h
  cases v with
  | null => exact absurd rfl hnull
  | _ => exact congrArg some hsorted

theorem RemoteError.received_of_ordered {e : RemoteError} (h : ∀ v ∈ e.details, v.Ordered) :
    e.received = e.delivered := by
  obtain ⟨code, message, details⟩ := e
  cases details with
  | none => rfl
  | some v =>
    by_cases hnull : v = .null
    · subst hnull
      rfl
    · have hkept : delivered ⟨code, message, some v⟩ = ⟨code, message, some v⟩ := by
        rw [delivered]
        split
        · next heq => exact absurd (Option.some.inj heq) hnull
        · rfl
      rw [hkept]
      show (⟨code, message, v.asDetails⟩ : RemoteError) = ⟨code, message, some v⟩
      rw [Value.asDetails_of_ordered (h v rfl) hnull]

/-- A message whose objects have their fields in order is read back as it arrives. -/
theorem Message.received_of_ordered {m : Message} (h : ∀ v ∈ m.payloads, v.Ordered) :
    m.received = m.delivered := by
  have hargs {vs : List Value} (hvs : ∀ v ∈ vs, v.Ordered) : vs.map Value.sorted = vs := by
    have hself : vs.map Value.sorted = vs.map id :=
      List.map_congr_left fun v hv => v.sorted_eq_self (hvs v hv)
    rw [hself, List.map_id]
  cases m with
  | request id proxy method args => exact congrArg (Message.request id proxy method) (hargs h)
  | notification proxy method args => exact congrArg (Message.notification proxy method) (hargs h)
  | reply id v => exact congrArg (Message.reply id) (v.sorted_eq_self (h v List.mem_cons_self))
  | replyErr id e =>
    -- the payload of an error are its details, if it has any
    have hdetails : ∀ v ∈ e.details, v.Ordered := fun v hv => h v (Option.mem_toList.mpr hv)
    exact congrArg (Message.replyErr id) (RemoteError.received_of_ordered hdetails)
  | cancel id => rfl

namespace Codec

/-- **An encoded message arrives as it was sent**, with any octets behind it. No octet string is
longer than 64 bits can count. -/
theorem delivery (m : Message) (hkeys : m.Terse) (hordered : ∀ v ∈ m.payloads, v.Ordered)
    (bs rest : Bytes) (h : encodeMessage m = .ok bs) (hlen : (bs ++ rest).length < 2 ^ 64) :
    decodeMessage (bs ++ rest) = .ok m.delivered := by
  obtain ⟨hdepth, rfl⟩ := (encodeMessage_eq_ok m bs).mp h
  rcases decodeMessage_append m rest hdepth hlen with hread | ⟨hlong, -⟩
  · rw [hread, Message.received_of_ordered hordered]
  · exact absurd hkeys.firstKeysShort hlong

/-- A request with integers at both ends of their range and a float that is a whole number, and
an octet behind it that belongs to no message. -/
theorem delivery_request :
    let payload : Value := .object
      [("a", .int ⟨-2 ^ 63, by decide⟩),
        ("b", .array [.int ⟨2 ^ 64 - 1, by decide⟩, .float ⟨⟨0x4000000000000000⟩, by decide⟩])]
    let bs : Bytes := [0xa1, 0x67, 0x72, 0x65, 0x71, 0x75, 0x65, 0x73, 0x74, 0xa4, 0x62, 0x69, 0x64,
      0x07, 0x68, 0x70, 0x72, 0x6f, 0x78, 0x79, 0x5f, 0x69, 0x64, 0x05, 0x66, 0x6d, 0x65, 0x74,
      0x68, 0x6f, 0x64, 0x61, 0x6d, 0x64, 0x61, 0x72, 0x67, 0x73, 0x81, 0xa2, 0x61, 0x61, 0x3b,
      0x7f, 0xff, 0xff, 0xff, 0xff, 0xff, 0xff, 0xff, 0x61, 0x62, 0x82, 0x1b, 0xff, 0xff, 0xff,
      0xff, 0xff, 0xff, 0xff, 0xff, 0xf9, 0x40, 0x00]
    let m : Message := .request ⟨7⟩ ⟨5⟩ "m" [payload]
    m.Terse ∧ (∀ v ∈ m.payloads, v.Ordered) ∧ encodeMessage m = .ok bs ∧
      (bs ++ [0xff]).length < 2 ^ 64 ∧ decodeMessage (bs ++ [0xff]) = .ok m.delivered := by
  intro payload bs m
  have hterse : m.Terse := by
    intro v hv
    obtain rfl := List.mem_singleton.mp hv
    exact ⟨by decide +kernel, trivial, by decide +kernel, ⟨trivial, trivial, trivial⟩, trivial⟩
  have hordered : ∀ v ∈ m.payloads, v.Ordered := by
    intro v hv
    obtain rfl := List.mem_singleton.mp hv
    refine ⟨?_, trivial, ⟨trivial, trivial, trivial⟩, trivial⟩
    show List.Pairwise (· < ·) ["a", "b"]
    decide
  have hdepth : ∀ v ∈ m.payloads, v.depth ≤ maxDepth := by
    intro v hv
    obtain rfl := List.mem_singleton.mp hv
    decide
  have hbytes : encodeMessage m = .ok bs :=
    (encodeMessage_eq_ok m bs).mpr ⟨hdepth, by decide +kernel⟩
  have hlen : (bs ++ [0xff]).length < 2 ^ 64 := by decide
  exact ⟨hterse, hordered, hbytes, hlen, delivery m hterse hordered bs [0xff] hbytes hlen⟩

/-- **Which encoded messages can be decoded**: those in which no object, at any depth, starts with a
key that is longer than a name. -/
theorem decodable_iff (m : Message) (bs : Bytes) (h : encodeMessage m = .ok bs)
    (hlen : bs.length < 2 ^ 64) : (∃ m', decodeMessage bs = .ok m') ↔ m.FirstKeysShort := by
  obtain ⟨hdepth, rfl⟩ := (encodeMessage_eq_ok m bs).mp h
  rw [← List.append_nil (Cbor.encodeMessage m)] at hlen ⊢
  -- what the sender has checked is enough for the reader but for the first keys
  constructor
  · rintro ⟨m', hread⟩
    refine Classical.byContradiction fun hlong => ?_
    obtain ⟨err, herr⟩ := decodeMessage_of_long m [] hdepth hlen hlong
    rw [hread] at herr
    cases herr
  · intro hshort
    rcases decodeMessage_append m [] hdepth hlen with hread | ⟨hlong, -⟩
    · exact ⟨_, hread⟩
    · exact absurd hshort hlong

/-- An object inside an array inside the details of an error. -/
theorem decodable_iff_details :
    let m : Message := .replyErr ⟨1⟩ ⟨.handlerFailed, "no", some (.array [.object [("a", .null)]])⟩
    encodeMessage m = .ok (Cbor.encodeMessage m) ∧ (Cbor.encodeMessage m).length < 2 ^ 64 ∧
      ((∃ m', decodeMessage (Cbor.encodeMessage m) = .ok m') ↔ m.FirstKeysShort) := by
  intro m
  have hdepth : ∀ v ∈ m.payloads, v.depth ≤ maxDepth := by
    intro v hv
    obtain rfl := List.mem_singleton.mp hv
    decide
  have hbytes : encodeMessage m = .ok (Cbor.encodeMessage m) :=
    (encodeMessage_eq_ok m _).mpr ⟨hdepth, rfl⟩
  have hlen : (Cbor.encodeMessage m).length < 2 ^ 64 := by decide +kernel
  exact ⟨hbytes, hlen, decodable_iff m _ hbytes hlen⟩

theorem length_encodeText_le (s : String) :
    (Cbor.encodeText s).length ≤ (Utf8.encode s).length + 9 := by
  have hhead := Cbor.length_encodeArgument 3 (Utf8.encode s).length
  show ((Cbor.encodeArgument 3 (Utf8.encode s).length) ++ Utf8.encode s).length ≤ _
  rw [List.length_append]
  omega

/-- What a reply puts around its value is short. -/
theorem length_reply (id : RequestId) (v : Value) :
    (Cbor.encodeMessage (.reply id v)).length ≤ (Cbor.encodeValue v).length + 26 := by
  have hid := Cbor.length_encodeInt id.val.toNat
  have hhead : (Cbor.Head.map (some 1)).encode.length = 1 := rfl
  have hinner : (Cbor.Head.map (some 2)).encode.length = 1 := rfl
  have hkind : (Cbor.encodeText MessageKind.reply.name).length = 6 := by decide +kernel
  have hidName : (Cbor.encodeText MessageField.id.name).length = 3 := by decide +kernel
  have hvalueName : (Cbor.encodeText MessageField.value.name).length = 6 := by decide +kernel
  have hbytes : Cbor.encodeMessage (.reply id v) = (Cbor.Head.map (some 1)).encode ++
      (Cbor.encodeText MessageKind.reply.name ++ ((Cbor.Head.map (some 2)).encode ++
        [Cbor.encodeText MessageField.id.name ++ Cbor.encodeInt id.val.toNat,
          Cbor.encodeText MessageField.value.name ++ Cbor.encodeValue v].flatten)) :=
    Cbor.Reader.encodeMessage_eq (.reply id v)
  rw [hbytes]
  simp only [List.length_append, List.flatten_cons, List.flatten_nil, List.append_nil]
  omega

/-- A reply with an object that starts with a long key is encoded and cannot be decoded, unless the
key alone takes more octets than there can be. -/
theorem undecodable_of_long_key (id : RequestId) {key : String}
    (hlong : Cbor.maxName < (Utf8.encode key).length) (hfits : (Utf8.encode key).length < 2 ^ 63) :
    ∃ bs, encodeMessage (.reply id (.object [(key, .null)])) = .ok bs ∧ bs.length < 2 ^ 64 ∧
      ¬∃ m', decodeMessage bs = .ok m' := by
  have hdepth : ∀ v ∈ (Message.reply id (.object [(key, .null)])).payloads, v.depth ≤ maxDepth := by
    intro v hv
    obtain rfl := List.mem_singleton.mp hv
    show 2 ≤ maxDepth
    decide
  have hfirst : ¬(Message.reply id (.object [(key, .null)])).FirstKeysShort := by
    intro hshort
    exact Nat.not_le.mpr hlong ((hshort _ List.mem_cons_self).1 _ rfl)
  have hlen : (Cbor.encodeMessage (.reply id (.object [(key, .null)]))).length < 2 ^ 64 := by
    have hreply := length_reply id (.object [(key, .null)])
    have htext := length_encodeText_le key
    have hvalue : Cbor.encodeValue (.object [(key, .null)]) =
        [0xa1] ++ (Cbor.encodeText key ++ [0xf6]) := rfl
    rw [hvalue, List.length_append, List.length_append, List.length_singleton,
      List.length_singleton] at hreply
    omega
  rw [← List.append_nil (Cbor.encodeMessage _)] at hlen
  refine ⟨_, (encodeMessage_eq_ok _ _).mpr ⟨hdepth, rfl⟩, ?_, ?_⟩
  · rwa [List.append_nil] at hlen
  · rintro ⟨m', hread⟩
    obtain ⟨err, herr⟩ := decodeMessage_of_long _ [] hdepth hlen hfirst
    rw [List.append_nil, hread] at herr
    cases herr

/-- The sender accepts a reply that the other side cannot read: the first key of its object is one
octet longer than a name. -/
theorem undecodable_long_key :
    ∃ bs, encodeMessage (.reply ⟨1⟩ (.object [(String.ofList (List.replicate 4097 'a'), .null)])) =
        .ok bs ∧ bs.length < 2 ^ 64 ∧ ¬∃ m', decodeMessage bs = .ok m' := by
  have hkey : (Utf8.encode (String.ofList (List.replicate 4097 'a'))).length = 4097 := by
    rw [Utf8.encode_ofList, List.length_flatMap, List.map_replicate, List.sum_replicate_nat]
    rfl
  exact undecodable_of_long_key ⟨1⟩ (by rw [hkey]; decide) (by rw [hkey]; decide)

end Codec

end PeerRpc
