import PeerRpc.Proofs.Cbor.Messages
import PeerRpc.Proofs.Codec.Delivery
import PeerRpc.Proofs.Endpoint.Results
import PeerRpc.Proofs.Value.Typed

/-!
# PeerRpc.Proofs.Codec.Typed -- typed calls arrive unchanged

A caller passes data of its own types and a handler reads arguments as types of its own; in between
there are plain data and octets. `Codec.typed_delivery` composes the four conversions. The caller's
data become one value each (`intoArguments_map`). A message that one side accepts and the other side
decodes carries the same values (`Codec.eq_of_conveys`), because plain forms have their fields in
order. From these values the handler reads what the caller passed (`argument_value`), and behind the
last one it reads null (`leftOut_of_length_le`). The result goes back the same way, into the call
that waits for it (`Call.poll_of_reply`).
-/

namespace PeerRpc

/-- What a program passes to a call or returns from one: an inhabitant of a shape, and the data that
it is held as. -/
structure Operand where
  shape : Shape
  content : shape.Carrier
  datum : Datum
  fits : shape.Fits content
  held : shape.HeldAs content datum

namespace Operand

/-- The plain form. -/
def value (x : Operand) : Value := x.shape.toValue x.content

theorem toValue_datum (x : Operand) : x.datum.toValue = .ok x.value :=
  x.shape.toValue_of_heldAs x.content x.datum x.fits x.held

theorem ofValue_value (x : Operand) : x.shape.ofValue x.value = .ok x.content :=
  x.shape.ofValue_toValue x.content x.fits

theorem ordered_value (x : Operand) : x.value.Ordered :=
  x.shape.ordered_toValue x.content x.fits

end Operand

/-! ## Arguments and results -/

/-- **The arguments of a call are one value each, in order.** -/
theorem intoArguments_map (args : List Operand) :
    intoArguments (args.map Operand.datum) = .ok (args.map Operand.value) := by
  rw [intoArguments, mapM_map_eq_ok fun x _ => x.toValue_datum]

theorem respond_datum (x : Operand) : respond x.datum = .ok x.value := by
  rw [respond, x.toValue_datum]

theorem result_value (x : Operand) : result x.shape x.value = .ok x.content := by
  rw [result, x.ofValue_value]

/-- **Every argument is read back at its place.** -/
theorem argument_value {args : List Operand} {i : Nat} {x : Operand} (h : args[i]? = some x) :
    argument x.shape (args.map Operand.value) i = .ok x.content := by
  have hvalue : (args.map Operand.value)[i]? = some x.value := by
    rw [List.getElem?_map, h, Option.map_some]
  rw [argument, hvalue, Option.getD_some, x.ofValue_value]

/-- How an argument is read that has been left out: as one that is null. This is nothing where the
argument is optional, and otherwise it does not fit. -/
structure LeftOut (vs : List Value) (i : Nat) : Prop where
  null : ∀ s vs', vs'[i]? = some .null → argument s vs i = argument s vs' i
  nothing : ∀ s, argument (.option s) vs i = .ok none
  invalid : ∀ s, s.takesNull = false → ∃ text, argument s vs i = .error (.invalidArguments text)

theorem leftOut_of_length_le {vs : List Value} {i : Nat} (h : vs.length ≤ i) : LeftOut vs i := by
  have hnone : vs[i]? = none := List.getElem?_eq_none h
  refine ⟨fun s vs' hnull => ?_, fun s => ?_, fun s hs => ?_⟩
  · rw [argument, argument, hnone, hnull, Option.getD_none, Option.getD_some]
  · rw [argument, hnone]
    rfl
  · obtain ⟨cause, hcause⟩ := Shape.ofValue_null hs
    exact ⟨_, by rw [argument, hnone, Option.getD_none, hcause]; rfl⟩

/-- What a handler reads of the arguments of a call. -/
structure Arrive (args : List Operand) (vs : List Value) : Prop where
  length : vs.length = args.length
  same : ∀ i x, args[i]? = some x → argument x.shape vs i = .ok x.content
  leftOut : ∀ i, args.length ≤ i → LeftOut vs i

theorem arrive_values (args : List Operand) : Arrive args (args.map Operand.value) where
  length := List.length_map _
  same _ _ h := argument_value h
  leftOut _ h := leftOut_of_length_le (Nat.le_trans (Nat.le_of_eq (List.length_map _)) h)

/-! ## The way of a message -/

namespace Codec

/-- A message is accepted by the side that sends it, and the other side decodes a frame that begins
with its octets. No frame is longer than 64 bits can count. -/
def Conveys (m : Message) (frame : Bytes) (m' : Message) : Prop :=
  ∃ bs rest, encodeMessage m = .ok bs ∧ bs ++ rest = frame ∧ frame.length < 2 ^ 64 ∧
    decodeMessage frame = .ok m'

/-- **What is accepted and decoded is the same message.** -/
theorem eq_of_conveys {m m' : Message} {frame : Bytes} (h : Conveys m frame m')
    (hordered : ∀ v ∈ m.payloads, v.Ordered) : m' = m.delivered := by
  obtain ⟨bs, rest, hencode, rfl, hlen, hdecode⟩ := h
  obtain ⟨hdepth, rfl⟩ := (encodeMessage_eq_ok m bs).mp hencode
  rcases decodeMessage_append m rest hdepth hlen with hread | ⟨-, err, hread⟩
  · rw [hdecode, Message.received_of_ordered hordered] at hread
    exact Except.ok.inj hread
  · rw [hdecode] at hread
    cases hread

/-- A message is conveyed if it is not too deep and no object in it starts with a long key. -/
theorem conveys_encodeMessage {m : Message} (hdepth : ∀ v ∈ m.payloads, v.depth ≤ maxDepth)
    (hshort : m.FirstKeysShort) (hordered : ∀ v ∈ m.payloads, v.Ordered)
    (hlen : (Cbor.encodeMessage m).length < 2 ^ 64) :
    Conveys m (Cbor.encodeMessage m) m.delivered := by
  rw [← List.append_nil (Cbor.encodeMessage m)] at hlen
  refine ⟨_, [], (encodeMessage_eq_ok m _).mpr ⟨hdepth, rfl⟩, List.append_nil _, ?_⟩
  rw [← List.append_nil (Cbor.encodeMessage m)]
  refine ⟨hlen, ?_⟩
  rcases decodeMessage_append m [] hdepth hlen with hread | ⟨hlong, -⟩
  · rw [hread, Message.received_of_ordered hordered]
  · exact absurd hshort hlong

end Codec

theorem forall_ordered_values (args : List Operand) : ∀ v ∈ args.map Operand.value, v.Ordered := by
  intro v hv
  obtain ⟨x, -, rfl⟩ := List.mem_map.mp hv
  exact x.ordered_value

/-! ## The caller -/

/-- A call that waits has the value of a reply as soon as this is received. -/
theorem Call.poll_of_reply {η : Type} [Handler η] {e : Endpoint η} {c : Call} {id : RequestId}
    {frame : Bytes} {v : Value} (hopen : e.isOpen = true) (hid : c.id = some id)
    (hpending : id ∈ e.waiting) (hnone : c.delivered = none)
    (hdecode : Codec.decodeMessage frame = .ok (.reply id v)) (now : Nat) (e' : Endpoint η) :
    (((e.receive frame).2.foldl Call.hear c).poll now e').1 = some (.ok v) := by
  have hreceive : e.receive frame = e.settle id fun _ => .ok v := by
    rw [Endpoint.receive, if_pos hopen, hdecode]
    rfl
  obtain ⟨p, hp⟩ := Option.isSome_iff_exists.mp ((e.find?_pending_isSome id).mpr hpending)
  have hdelivered : ((e.receive frame).2.foldl Call.hear c).delivered = some (.ok v) := by
    rw [Call.delivered_hears, hnone, hid, hreceive, Option.bind_some, Endpoint.resultFor?_settle,
      if_pos rfl, hp]
    rfl
  rw [Call.poll, hdelivered]

/-- A frame answers a request with an operand: from then on a call that has waited for it, at any
endpoint that is open, has a result, and its caller reads the operand from this. -/
def Operand.AnsweredBy (x : Operand) (id : RequestId) (frame : Bytes) : Prop :=
  ∀ (η : Type) [Handler η] (e : Endpoint η) (c : Call), e.isOpen = true → c.id = some id →
    id ∈ e.waiting → c.delivered = none → ∀ (now : Nat) (e' : Endpoint η), ∃ r,
      (((e.receive frame).2.foldl Call.hear c).poll now e').1 = some r ∧
        r.bind (result x.shape) = .ok x.content

theorem Operand.answeredBy_of_decode {x : Operand} {id : RequestId} {frame : Bytes}
    (h : Codec.decodeMessage frame = .ok (.reply id x.value)) : x.AnsweredBy id frame :=
  fun _ _ _ _ hopen hid hpending hnone now e' =>
    ⟨.ok x.value, Call.poll_of_reply hopen hid hpending hnone h now e', result_value x⟩

namespace Codec

/-- **Typed calls arrive unchanged.** The arguments of a call are one value each, in order. Whenever
the request or the notification that carries them is accepted and decoded, the handler reads every
argument as it was passed, and null behind the last one. Whenever the reply that carries a result is
accepted and decoded, the caller reads the result as it was returned. -/
theorem typed_delivery (args : List Operand) (x : Operand) :
    intoArguments (args.map Operand.datum) = .ok (args.map Operand.value) ∧
    (∀ id proxy method frame m,
      Conveys (.request id proxy method (args.map Operand.value)) frame m →
        ∃ vs, m = .request id proxy method vs ∧ Arrive args vs) ∧
    (∀ proxy method frame m,
      Conveys (.notification proxy method (args.map Operand.value)) frame m →
        ∃ vs, m = .notification proxy method vs ∧ Arrive args vs) ∧
    respond x.datum = .ok x.value ∧
    ∀ id frame m, Conveys (.reply id x.value) frame m →
      ∃ v, m = .reply id v ∧ result x.shape v = .ok x.content ∧ x.AnsweredBy id frame := by
  have hargs := forall_ordered_values args
  refine ⟨intoArguments_map args, fun id proxy method frame m hm => ?_,
    fun proxy method frame m hm => ?_, respond_datum x, fun id frame m hm => ?_⟩
  · exact ⟨_, eq_of_conveys hm hargs, arrive_values args⟩
  · exact ⟨_, eq_of_conveys hm hargs, arrive_values args⟩
  · have hsame : m = .reply id x.value := eq_of_conveys hm fun v hv => by
      rw [List.mem_singleton.mp hv]
      exact x.ordered_value
    obtain ⟨-, -, -, -, -, hdecode⟩ := hm
    exact ⟨x.value, hsame, result_value x, Operand.answeredBy_of_decode (hsame ▸ hdecode)⟩

/-! ## A call with everything -/

/-- A map that the program lists in another order than its keys have. -/
def scores : Operand where
  shape := .map (.int .int64)
  content := [("a", ⟨-2 ^ 63, by decide⟩), ("b", ⟨2 ^ 63 - 1, by decide⟩)]
  datum := .map [(.value (.string "b"), .int (2 ^ 63 - 1)), (.value (.string "a"), .int (-2 ^ 63))]
  fits := ⟨show List.Pairwise (· < ·) ["a", "b"] by decide, trivial, trivial⟩
  held := ⟨[("b", ⟨2 ^ 63 - 1, by decide⟩), ("a", ⟨-2 ^ 63, by decide⟩)], _, rfl, .swap _ _ _,
    .cons ⟨rfl, rfl⟩ (.cons ⟨rfl, rfl⟩ .nil)⟩

/-- Six arguments: the greatest word, a number that no integer is, a character, an optional text that
is there, a pair, and a map. -/
def everything : List Operand := [
  ⟨.int .word64, ⟨2 ^ 64 - 1, by decide⟩, .int (2 ^ 64 - 1), trivial, rfl⟩,
  ⟨.float, ⟨0x3fb999999999999a⟩, .float ⟨0x3fb999999999999a⟩, rfl, rfl⟩,
  ⟨.char, 'é', .char 'é', trivial, rfl⟩,
  ⟨.option .string, some "", .some (.value (.string "")), ⟨rfl, trivial⟩, _, rfl, rfl⟩,
  ⟨.pair (.int .int64) .string, (⟨-1, by decide⟩, "x"), .list [.int (-1), .value (.string "x")],
    ⟨trivial, trivial⟩, _, _, rfl, rfl, rfl⟩,
  scores]

theorem typed_delivery_everything :
    let m : Message := .request ⟨1⟩ ⟨6⟩ "m" (everything.map Operand.value)
    let answer : Message := .reply ⟨1⟩ scores.value
    Conveys m (Cbor.encodeMessage m) m ∧ Conveys answer (Cbor.encodeMessage answer) answer ∧
      (∃ vs, m = .request ⟨1⟩ ⟨6⟩ "m" vs ∧ Arrive everything vs) ∧
      ∃ v, answer = .reply ⟨1⟩ v ∧ result scores.shape v = .ok scores.content ∧
        scores.AnsweredBy ⟨1⟩ (Cbor.encodeMessage answer) := by
  intro m answer
  have hscores : scores.value.FirstKeysShort := ⟨by decide +kernel, trivial, trivial, trivial⟩
  have hshort : List.Forall Value.FirstKeysShort (everything.map Operand.value) :=
    ⟨trivial, trivial, trivial, trivial, ⟨trivial, trivial, trivial⟩, hscores⟩
  have hm : Conveys m (Cbor.encodeMessage m) m :=
    conveys_encodeMessage
      (show ∀ v ∈ everything.map Operand.value, v.depth ≤ maxDepth by decide +kernel)
      (List.forall_iff_forall_mem.mp hshort) (forall_ordered_values everything) (by decide +kernel)
  have hanswer : Conveys answer (Cbor.encodeMessage answer) answer :=
    conveys_encodeMessage (show ∀ v ∈ [scores.value], v.depth ≤ maxDepth by decide +kernel)
      (List.forall_mem_singleton.mpr hscores) (forall_ordered_values [scores]) (by decide +kernel)
  obtain ⟨-, hrequest, -, -, hreply⟩ := typed_delivery everything scores
  exact ⟨hm, hanswer, hrequest _ _ _ _ _ hm, hreply _ _ _ hanswer⟩

end Codec

end PeerRpc
