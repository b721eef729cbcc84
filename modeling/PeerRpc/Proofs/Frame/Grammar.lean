import PeerRpc.Proofs.Frame.Chunks

/-!
# PeerRpc.Proofs.Frame.Grammar -- which octets are a frame

Nine octets or more always begin with a header (`exists_begins`): a length, a type, a check word.
`Begins` says so without cutting the buffer into pieces, and `Spells` says which octets are a frame:
a header that announces the payload behind it, a length that is allowed, one of the two types, and
the check word of the payload.

A look at a buffer comes to one of six ends, which `Finding` lists by the octets alone. The length
is judged before anything else, then whether the payload is all there, then the type and at last the
check word. `decode_eq_iff` says that the list is right and complete: what a look finds is what the
octets say. The octets that are taken for a frame are those that are written for it
(`Spells.encode`), so the two directions agree octet by octet.
-/

namespace PeerRpc

namespace FrameType

theorem ofOctet_of_unknown {b : UInt8} (h : b ≠ 0x01 ∧ b ≠ 0x06) :
    ofOctet b = .error (.unknownType b) := by
  rw [ofOctet, if_neg h.1, if_neg h.2]

/-- An octet that is neither of the two stands for no type. -/
theorem exists_octet {b : UInt8} (h : ¬(b ≠ 0x01 ∧ b ≠ 0x06)) : ∃ t, b = octet t := by
  by_cases hb : b = 0x01
  · exact ⟨.message, hb⟩
  · exact ⟨.close, Decidable.not_not.mp fun hb' => h ⟨hb, hb'⟩⟩

end FrameType

namespace Frame

variable {max : Nat} {buffer bs body rest : Bytes} {size : Nat} {type : UInt8} {word : UInt32}
  {f : Frame}

/-! ## Headers -/

/-- The buffer begins with a header, and `body` is behind it: the length of a payload in four
octets, the octet of a type, and a check word in four octets. The most significant octet of a number
is the first. -/
structure Begins (buffer : Bytes) (size : Nat) (type : UInt8) (word : UInt32) (body : Bytes) :
    Prop where
  fits : size < 2 ^ 32
  octets : buffer = Bytes.bigEndian 4 size ++ type :: (Bytes.bigEndian 4 word.toNat ++ body)

theorem Begins.length (h : Begins buffer size type word body) :
    buffer.length = headerSize + body.length := by
  rw [h.octets, headerSize]
  simp only [List.length_append, List.length_cons, Bytes.length_bigEndian]
  omega

/-- What follows a header may be cut anywhere. -/
theorem Begins.append (h : Begins bs size type word body) (rest : Bytes) :
    Begins (bs ++ rest) size type word (body ++ rest) := by
  refine ⟨h.fits, ?_⟩
  rw [h.octets, List.append_assoc, List.cons_append, List.append_assoc]

/-- The part of a buffer that ends inside what follows the header. -/
theorem Begins.split (h : Begins buffer size type word (body ++ rest)) :
    ∃ bs, Begins bs size type word body ∧ buffer = bs ++ rest := by
  refine ⟨_, ⟨h.fits, rfl⟩, ?_⟩
  rw [h.octets, List.append_assoc, List.cons_append, List.append_assoc]

/-- **Every buffer that is long enough begins with a header.** -/
theorem exists_begins (h : headerSize ≤ buffer.length) :
    ∃ size type word body, Begins buffer size type word body := by
  obtain ⟨length, check, body, type, hlength, hcheck, rfl⟩ := exists_fields h
  have hsize := Bytes.ofBigEndian_lt length
  have hword := Bytes.ofBigEndian_lt check
  -- each field is the big-endian word of its number
  have hlength' := Bytes.bigEndian_ofBigEndian length
  have hcheck' := Bytes.bigEndian_ofBigEndian check
  rw [hlength] at hsize hlength'
  rw [hcheck] at hword hcheck'
  refine ⟨Bytes.ofBigEndian length, type, .ofNat (Bytes.ofBigEndian check), body, hsize, ?_⟩
  rw [UInt32.toNat_ofNat_of_lt' hword, hlength', hcheck']

/-- A look at a buffer, by the numbers in its header. -/
theorem decode_begins (h : Begins buffer size type word body) (max : Nat) :
    decode max buffer =
      if max < size then .refused (.tooLarge size max) buffer
      else if body.length < size then .waiting
      else
        match FrameType.ofOctet type with
        | .error e => .refused e buffer
        | .ok t =>
          match (⟨t, body.take size, word⟩ : Frame).verify with
          | .error e => .refused e (body.drop size)
          | .ok () => .frame ⟨t, body.take size, word⟩ (body.drop size) := by
  have hsize : Bytes.ofBigEndian (Bytes.bigEndian 4 size) = size := by
    rw [Bytes.ofBigEndian_bigEndian]
    exact Nat.mod_eq_of_lt h.fits
  have hword : UInt32.ofNat (Bytes.ofBigEndian (Bytes.bigEndian 4 word.toNat)) = word := by
    rw [Bytes.ofBigEndian_bigEndian, show 256 ^ 4 = 2 ^ 32 from rfl,
      Nat.mod_eq_of_lt word.toNat_lt, UInt32.ofNat_toNat]
  have hfields := decode_fields (Bytes.length_bigEndian 4 size)
    (Bytes.length_bigEndian 4 word.toNat) max type body
  rw [hsize, hword] at hfields
  rw [h.octets]
  exact hfields

/-! ## Frames -/

/-- The octets spell the frame: they are a header and the payload that it announces, which is not
longer than allowed, the type is one of the two, and the check word is that of the payload. -/
structure Spells (max : Nat) (bs : Bytes) (f : Frame) : Prop where
  header : Begins bs f.payload.length f.type.octet f.checksum f.payload
  short : f.payload.length ≤ max
  checksum : f.checksum = Crc32.checksum f.payload

/-- **The octets of a frame are those that are written for it.** -/
theorem Spells.encode (h : Spells max bs f) : f.encode max = .ok bs := by
  rw [Frame.encode, if_neg (Nat.not_lt.mpr h.short), h.header.octets]
  rfl

/-- What a look at a buffer finds, by its octets alone. -/
inductive Finding (max : Nat) (buffer : Bytes) : Decoded → Prop
  /-- Not even a header is there. -/
  | short (few : buffer.length < headerSize) : Finding max buffer .waiting
  /-- The payload is not all there. -/
  | cut {size : Nat} {type : UInt8} {word : UInt32} {body : Bytes}
      (header : Begins buffer size type word body) (fits : size ≤ max)
      (few : body.length < size) : Finding max buffer .waiting
  /-- The payload would be longer than allowed, whether or not it is there. -/
  | tooLarge {size : Nat} {type : UInt8} {word : UInt32} {body : Bytes}
      (header : Begins buffer size type word body) (long : max < size) :
      Finding max buffer (.refused (.tooLarge size max) buffer)
  /-- The payload is there, but no frame has the type. -/
  | unknownType {type : UInt8} {word : UInt32} {payload rest : Bytes}
      (header : Begins buffer payload.length type word (payload ++ rest))
      (fits : payload.length ≤ max) (unknown : type ≠ 0x01 ∧ type ≠ 0x06) :
      Finding max buffer (.refused (.unknownType type) buffer)
  /-- The payload is there and the type is right, but not the check word. -/
  | badChecksum {t : FrameType} {word : UInt32} {payload rest : Bytes}
      (header : Begins buffer payload.length t.octet word (payload ++ rest))
      (fits : payload.length ≤ max) (wrong : word ≠ Crc32.checksum payload) :
      Finding max buffer (.refused (.badChecksum word (Crc32.checksum payload)) rest)
  /-- The buffer starts with a frame. -/
  | frame {bs : Bytes} {f : Frame} {rest : Bytes} (spelt : Spells max bs f)
      (octets : buffer = bs ++ rest) : Finding max buffer (.frame f rest)

/-- A look at a buffer with a header and the payload that it announces. -/
theorem decode_whole {payload : Bytes}
    (h : Begins buffer payload.length type word (payload ++ rest))
    (hmax : payload.length ≤ max) :
    decode max buffer =
      match FrameType.ofOctet type with
      | .error e => .refused e buffer
      | .ok t =>
        match (⟨t, payload, word⟩ : Frame).verify with
        | .error e => .refused e rest
        | .ok () => .frame ⟨t, payload, word⟩ rest := by
  have hwhole : ¬ (payload ++ rest).length < payload.length := by
    rw [List.length_append]
    omega
  rw [decode_begins h, if_neg (Nat.not_lt.mpr hmax), if_neg hwhole, List.take_left, List.drop_left]

/-- **Octets that say something are found to say so.** -/
theorem Finding.decode_eq {d : Decoded} (h : Finding max buffer d) : decode max buffer = d := by
  cases h with
  | short few => exact decode_of_short few
  | cut header fits few => rw [decode_begins header, if_neg (Nat.not_lt.mpr fits), if_pos few]
  | tooLarge header long => rw [decode_begins header, if_pos long]
  | unknownType header fits unknown =>
      rw [decode_whole header fits, FrameType.ofOctet_of_unknown unknown]
  | badChecksum header fits wrong =>
      rw [decode_whole header fits, FrameType.ofOctet_octet]
      simp only [verify, if_neg wrong]
  | frame spelt octets =>
      subst octets
      rw [decode_whole (spelt.header.append _) spelt.short, FrameType.ofOctet_octet]
      simp only [verify, if_pos spelt.checksum]

/-- **Every buffer says something.** -/
theorem finding_decode (max : Nat) (buffer : Bytes) : Finding max buffer (decode max buffer) := by
  by_cases hfew : buffer.length < headerSize
  · rw [decode_of_short hfew]
    exact .short hfew
  obtain ⟨size, type, word, body, header⟩ := exists_begins (Nat.le_of_not_lt hfew)
  by_cases hlong : max < size
  · have h := Finding.tooLarge header hlong
    rwa [← h.decode_eq] at h
  by_cases hcut : body.length < size
  · have h := Finding.cut header (Nat.le_of_not_lt hlong) hcut
    rwa [← h.decode_eq] at h
  -- the payload is the part of the body that the header announces
  obtain ⟨payload, rest, rfl, rfl⟩ : ∃ payload rest, payload.length = size ∧
      body = payload ++ rest := by
    refine ⟨body.take size, body.drop size, ?_, (List.take_append_drop _ _).symm⟩
    rw [List.length_take]
    omega
  have hfits := Nat.le_of_not_lt hlong
  by_cases hunknown : type ≠ 0x01 ∧ type ≠ 0x06
  · have h := Finding.unknownType header hfits hunknown
    rwa [← h.decode_eq] at h
  obtain ⟨t, rfl⟩ := FrameType.exists_octet hunknown
  by_cases hword : word = Crc32.checksum payload
  · obtain ⟨bs, hbegins, hsplit⟩ := header.split
    have h : Finding max buffer (.frame ⟨t, payload, word⟩ rest) :=
      .frame ⟨hbegins, hfits, hword⟩ hsplit
    rwa [← h.decode_eq] at h
  · have h := Finding.badChecksum header hfits hword
    rwa [← h.decode_eq] at h

/-- **What a look at a buffer finds is what its octets say.** -/
theorem decode_eq_iff {d : Decoded} : decode max buffer = d ↔ Finding max buffer d := by
  constructor
  · rintro rfl
    exact finding_decode max buffer
  · exact Finding.decode_eq

/-! ## The grammar -/

/-- What a look at a buffer leaves in it. -/
def Decoded.left (buffer : Bytes) : Decoded → Bytes
  | .waiting => buffer
  | .frame _ rest => rest
  | .refused _ rest => rest

/-- **Reading accepts exactly the frames.** A frame is found exactly if the buffer starts with
octets that spell it; what follows them is left, and they are the octets that are written for the
frame. The reader waits exactly if fewer than nine octets are there, or fewer than the header says
although it may say so; the buffer is left as it is. In every other case the buffer holds invalid data: a length
that is not allowed or a type that does not exist, and then the buffer is left as it is, or a frame
with a wrong check word, and then just this frame is dropped. -/
theorem decode_grammar (max : Nat) (buffer : Bytes) :
    (∀ f rest, decode max buffer = .frame f rest ↔
      ∃ bs, Spells max bs f ∧ buffer = bs ++ rest) ∧
    (∀ f rest, decode max buffer = .frame f rest →
      ∃ bs, f.encode max = .ok bs ∧ buffer = bs ++ rest) ∧
    (decode max buffer = .waiting ↔ buffer.length < 9 ∨
      ∃ size type word body, Begins buffer size type word body ∧ size ≤ max ∧
        buffer.length < 9 + size) ∧
    (decode max buffer = .waiting → (decode max buffer).left buffer = buffer) ∧
    ((∀ f rest, decode max buffer ≠ .frame f rest) → decode max buffer ≠ .waiting →
      ∃ e left, decode max buffer = .refused e left ∧ (StreamError.frame e).kind = .invalidData) ∧
    (∀ e left, decode max buffer = .refused e left ↔
      (∃ size type word body, Begins buffer size type word body ∧ max < size ∧
        e = .tooLarge size max ∧ left = buffer) ∨
      (∃ type word payload rest, Begins buffer payload.length type word (payload ++ rest) ∧
        payload.length ≤ max ∧ type ≠ 0x01 ∧ type ≠ 0x06 ∧
        e = .unknownType type ∧ left = buffer) ∨
      (∃ (t : FrameType) (word : UInt32) (bad payload : Bytes),
        Begins bad payload.length t.octet word payload ∧
        payload.length ≤ max ∧ word ≠ Crc32.checksum payload ∧
        e = .badChecksum word (Crc32.checksum payload) ∧ buffer = bad ++ left)) := by
  refine ⟨?frame, ?encode, ?waiting, ?kept, ?other, ?refused⟩
  case frame =>
    intro f rest
    rw [decode_eq_iff]
    constructor
    · intro h
      cases h with
      | frame spelt octets => exact ⟨_, spelt, octets⟩
    · rintro ⟨bs, spelt, octets⟩
      exact .frame spelt octets
  case encode =>
    intro f rest h
    cases decode_eq_iff.mp h with
    | frame spelt octets => exact ⟨_, spelt.encode, octets⟩
  case waiting =>
    rw [decode_eq_iff]
    constructor
    · intro h
      cases h with
      | short few => exact Or.inl few
      | cut header fits few =>
          have hlength := header.length
          rw [headerSize] at hlength
          exact Or.inr ⟨_, _, _, _, header, fits, by omega⟩
    · rintro (few | ⟨size, type, word, body, header, fits, few⟩)
      · exact .short few
      · have hlength := header.length
        rw [headerSize] at hlength
        exact .cut header fits (by omega)
  case kept =>
    intro h
    rw [h]
    rfl
  case other =>
    intro hframe hwaiting
    cases hd : decode max buffer with
    | waiting => exact absurd hd hwaiting
    | frame f rest => exact absurd hd (hframe f rest)
    | refused e left => exact ⟨e, left, rfl, rfl⟩
  case refused =>
    intro e left
    rw [decode_eq_iff]
    constructor
    · intro h
      cases h with
      | tooLarge header long => exact Or.inl ⟨_, _, _, _, header, long, rfl, rfl⟩
      | unknownType header fits unknown =>
          exact Or.inr (Or.inl ⟨_, _, _, _, header, fits, unknown.1, unknown.2, rfl, rfl⟩)
      | badChecksum header fits wrong =>
          obtain ⟨bad, hbegins, hsplit⟩ := header.split
          exact Or.inr (Or.inr ⟨_, _, bad, _, hbegins, fits, wrong, rfl, hsplit⟩)
    · rintro (⟨size, type, word, body, header, long, rfl, rfl⟩ |
        ⟨type, word, payload, rest, header, fits, h1, h6, rfl, rfl⟩ |
        ⟨t, word, bad, payload, header, fits, wrong, rfl, rfl⟩)
      · exact .tooLarge header long
      · exact .unknownType header fits ⟨h1, h6⟩
      · exact .badChecksum (header.append left) fits wrong

end Frame

end PeerRpc
