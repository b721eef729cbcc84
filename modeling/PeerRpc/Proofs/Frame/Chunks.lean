import PeerRpc.Frame

/-!
# PeerRpc.Proofs.Frame.Chunks -- frames do not depend on how their octets arrive

A byte stream arrives in chunks, and a cut may fall anywhere: inside a header, between a header and
its payload, inside a frame that will be refused. A reader keeps what it has not taken, appends
each chunk to it, and then takes frames from the front until there is no whole one or one is
refused (`drain`). At the end of the stream it looks again, and what is left over is an error
(`drainAtEnd`).

The argument is about one look at a buffer. What it finds stays found when more octets follow
(`decode_append`): only waiting can change. So the loop may be interrupted after any octet and
resumed (`Intake.feed_feed`), the state of a reader after some chunks is its state after the octets
of all of them (`Intake.foldl_feed`), and a stream is read as if it had been there from the start
(`readChunks_eq`). A frame takes the nine octets of its header at least, which bounds the loop
(`length_frames_drain`).

The frames that are written are the frames that are read: `decode_toBytes` for one of them with
anything behind it, `drain_toBytes` for a row of them.
-/

namespace PeerRpc

namespace Frame

variable {max : Nat} {buffer rest more : Bytes} {f : Frame} {e : FrameError}

/-! ## One look at a buffer -/

/-- What a look finds when more octets follow what it has seen. -/
def Decoded.followedBy (more : Bytes) : Decoded → Decoded
  | .waiting => .waiting
  | .frame f rest => .frame f (rest ++ more)
  | .refused e rest => .refused e (rest ++ more)

/-- A buffer that is shorter than a header has to wait. -/
theorem decode_of_short (h : buffer.length < headerSize) : decode max buffer = .waiting := by
  rw [decode, if_pos]
  rw [List.length_take]
  omega

/-- A buffer that is not shorter than a header holds its fields: the length of the payload, the
type, the check word, and what follows them. -/
theorem exists_fields (h : headerSize ≤ buffer.length) :
    ∃ (size word body : Bytes) (b : UInt8), size.length = 4 ∧ word.length = 4 ∧
      buffer = size ++ b :: (word ++ body) := by
  rw [headerSize] at h
  refine ⟨buffer.take 4, (buffer.drop 5).take 4, buffer.drop 9, buffer[4], ?_, ?_, ?_⟩
  · rw [List.length_take]
    omega
  · rw [List.length_take, List.length_drop]
    omega
  · have hbody : buffer.drop 9 = (buffer.drop 5).drop 4 := by rw [List.drop_drop]
    rw [hbody, List.take_append_drop, ← List.drop_eq_getElem_cons, List.take_append_drop]

/-- A look at a buffer, by the fields of its header. -/
theorem decode_fields {size word : Bytes} (hsize : size.length = 4) (hword : word.length = 4)
    (max : Nat) (b : UInt8) (body : Bytes) :
    decode max (size ++ b :: (word ++ body)) =
      if max < Bytes.ofBigEndian size then
        .refused (.tooLarge (Bytes.ofBigEndian size) max) (size ++ b :: (word ++ body))
      else if body.length < Bytes.ofBigEndian size then .waiting
      else
        match FrameType.ofOctet b with
        | .error e => .refused e (size ++ b :: (word ++ body))
        | .ok t =>
          let f : Frame :=
            ⟨t, body.take (Bytes.ofBigEndian size), .ofNat (Bytes.ofBigEndian word)⟩
          match f.verify with
          | .error e => .refused e (body.drop (Bytes.ofBigEndian size))
          | .ok () => .frame f (body.drop (Bytes.ofBigEndian size)) := by
  -- where each field stands in the buffer
  have hhead : (size ++ b :: (word ++ body)).take 4 = size := List.take_left' hsize
  have htype : (size ++ b :: (word ++ body)).drop 4 = b :: (word ++ body) := List.drop_left' hsize
  have hcheck : (size ++ b :: (word ++ body)).drop 5 = word ++ body := by
    rw [show 5 = 4 + 1 from rfl, ← List.drop_drop, htype, List.drop_one, List.tail_cons]
  have hbody : (size ++ b :: (word ++ body)).drop 9 = body := by
    rw [show 9 = 5 + 4 from rfl, ← List.drop_drop, hcheck, List.drop_left' hword]
  have hlong : ¬ ((size ++ b :: (word ++ body)).take headerSize).length < headerSize := by
    simp only [headerSize, List.length_take, List.length_append, List.length_cons]
    omega
  have hwhole : (body.take (Bytes.ofBigEndian size)).length < Bytes.ofBigEndian size ↔
      body.length < Bytes.ofBigEndian size := by
    rw [List.length_take]
    omega
  rw [decode, if_neg hlong]
  dsimp only [headerSize]
  rw [hhead, htype, hcheck, hbody, List.take_left' hword]
  exact ite_congr rfl (fun _ => rfl) fun _ => ite_congr (propext hwhole) (fun _ => rfl) fun _ => rfl

/-- **What a look finds stays found when more octets follow.** -/
theorem decode_append (h : decode max buffer ≠ .waiting) (more : Bytes) :
    decode max (buffer ++ more) = (decode max buffer).followedBy more := by
  have hhead : headerSize ≤ buffer.length :=
    Nat.le_of_not_lt fun hshort => h (decode_of_short hshort)
  obtain ⟨size, word, body, b, hsize, hword, rfl⟩ := exists_fields hhead
  -- the header is the same nine octets, and what follows it only grows at its end
  have hmore : size ++ b :: (word ++ body) ++ more = size ++ b :: (word ++ (body ++ more)) := by
    simp only [List.append_assoc, List.cons_append]
  rw [decode_fields hsize hword] at h
  rw [decode_fields hsize hword, hmore, decode_fields hsize hword, ← hmore]
  generalize Bytes.ofBigEndian size = n at h ⊢
  by_cases hmax : max < n
  · -- the length is refused on the header alone
    rw [if_pos hmax, if_pos hmax]
    rfl
  · rw [if_neg hmax] at h ⊢
    rw [if_neg hmax]
    -- otherwise a look that does not wait has seen the whole payload
    have hwhole : ¬ body.length < n := by
      intro hshort
      rw [if_pos hshort] at h
      exact h rfl
    have hwhole' : ¬ (body ++ more).length < n := by
      rw [List.length_append]
      omega
    rw [if_neg hwhole, if_neg hwhole', List.take_append_of_le_length (Nat.le_of_not_lt hwhole),
      List.drop_append_of_le_length (Nat.le_of_not_lt hwhole)]
    cases FrameType.ofOctet b with
    | error e => rfl
    | ok t =>
      dsimp only
      split <;> rfl

/-- A frame takes the octets of its header and of its payload from the buffer. -/
theorem length_of_decode (h : decode max buffer = .frame f rest) :
    rest.length + f.payload.length + headerSize = buffer.length := by
  have hhead : headerSize ≤ buffer.length := by
    refine Nat.le_of_not_lt fun hshort => ?_
    rw [decode_of_short hshort] at h
    cases h
  obtain ⟨size, word, body, b, hsize, hword, rfl⟩ := exists_fields hhead
  rw [decode_fields hsize hword] at h
  -- of the five ways out of a look one has a frame
  dsimp only at h
  split at h
  · cases h
  split at h
  · cases h
  split at h
  · cases h
  split at h
  · cases h
  · cases h
    simp only [headerSize, List.length_append, List.length_cons, List.length_drop,
      List.length_take, hsize, hword]
    omega

theorem length_lt_of_decode (h : decode max buffer = .frame f rest) :
    rest.length < buffer.length := by
  have := length_of_decode h
  rw [headerSize] at this
  omega

/-- A frame at the end of a stream is one that would have been found before it. -/
theorem decode_of_decodeAtEnd (h : decodeAtEnd max buffer = .frame f rest) :
    decode max buffer = .frame f rest := by
  unfold decodeAtEnd at h
  split at h
  · cases h
    assumption
  · cases h
  · split at h <;> cases h

/-! ## The loop -/

/-- How far a reader of frames has come: the frames it has taken, and the octets it keeps for the
next one, or the error that has stopped it. -/
structure Intake where
  frames : List Frame
  kept : Except FrameError Bytes

/-- Takes frames from the front of a buffer until there is no whole one or one is refused. -/
def drain (max : Nat) (buffer : Bytes) : Intake :=
  match h : decode max buffer with
  | .waiting => ⟨[], .ok buffer⟩
  | .refused e _ => ⟨[], .error e⟩
  | .frame f rest =>
    have : rest.length < buffer.length := length_lt_of_decode h
    ⟨f :: (drain max rest).frames, (drain max rest).kept⟩
termination_by buffer.length

/-- Takes frames from a buffer to which nothing more will come: all of them, and the error that
ends the stream if it does not end between two frames. -/
def drainAtEnd (max : Nat) (buffer : Bytes) : List Frame × Option StreamError :=
  match h : decodeAtEnd max buffer with
  | .finished => ([], none)
  | .refused e _ => ([], some e)
  | .frame f rest =>
    have : rest.length < buffer.length := length_lt_of_decode (decode_of_decodeAtEnd h)
    (f :: (drainAtEnd max rest).1, (drainAtEnd max rest).2)
termination_by buffer.length

/-- A chunk has come: it is appended to what has been kept, and the loop runs. A reader that has
been stopped takes nothing more. -/
def Intake.feed (max : Nat) (s : Intake) (chunk : Bytes) : Intake :=
  match s.kept with
  | .error e => ⟨s.frames, .error e⟩
  | .ok buffer =>
    let taken := drain max (buffer ++ chunk)
    ⟨s.frames ++ taken.frames, taken.kept⟩

theorem drain_of_waiting (h : decode max buffer = .waiting) :
    drain max buffer = ⟨[], .ok buffer⟩ := by
  rw [drain]
  split <;> simp_all

theorem drain_of_refused (h : decode max buffer = .refused e rest) :
    drain max buffer = ⟨[], .error e⟩ := by
  rw [drain]
  split <;> simp_all

theorem drain_of_frame (h : decode max buffer = .frame f rest) :
    drain max buffer = ⟨f :: (drain max rest).frames, (drain max rest).kept⟩ := by
  rw [drain]
  split <;> simp_all

theorem drainAtEnd_of_waiting (h : decode max buffer = .waiting) :
    drainAtEnd max buffer = ([], if buffer.isEmpty then none else some .bytesRemaining) := by
  have hend : decodeAtEnd max buffer =
      if buffer.isEmpty then .finished else .refused .bytesRemaining buffer := by
    rw [decodeAtEnd, h]
  rw [drainAtEnd]
  by_cases hnil : buffer.isEmpty
  · rw [if_pos hnil] at hend ⊢
    split <;> simp_all
  · rw [if_neg hnil] at hend ⊢
    split <;> simp_all

theorem drainAtEnd_of_refused (h : decode max buffer = .refused e rest) :
    drainAtEnd max buffer = ([], some (.frame e)) := by
  have hend : decodeAtEnd max buffer = .refused (.frame e) rest := by
    rw [decodeAtEnd, h]
  rw [drainAtEnd]
  split <;> simp_all

theorem drainAtEnd_of_frame (h : decode max buffer = .frame f rest) :
    drainAtEnd max buffer = (f :: (drainAtEnd max rest).1, (drainAtEnd max rest).2) := by
  have hend : decodeAtEnd max buffer = .frame f rest := by
    rw [decodeAtEnd, h]
  rw [drainAtEnd]
  split <;> simp_all

/-- **The loop takes at most one frame for every nine octets.** -/
theorem length_frames_drain (max : Nat) (buffer : Bytes) :
    (drain max buffer).frames.length * headerSize ≤ buffer.length := by
  fun_induction drain max buffer with
  | case1 => simp
  | case2 => simp
  | case3 buffer f rest h _ ih =>
    have := length_of_decode h
    rw [List.length_cons, Nat.succ_mul]
    omega

/-- **The loop may be interrupted after any octet.** To take what is there, keep the rest and go on
when more has come, is to take from the longer buffer. -/
theorem drain_append (max : Nat) (buffer more : Bytes) :
    drain max (buffer ++ more) = (drain max buffer).feed max more := by
  -- along the frames of the shorter buffer; a look that waits is the only one that is repeated
  fun_induction drain max buffer with
  | case1 buffer h => rfl
  | case2 buffer e rest h =>
    have hmore := decode_append (by rw [h]; exact nofun) more
    rw [h] at hmore
    exact drain_of_refused hmore
  | case3 buffer f rest h _ ih =>
    have hmore := decode_append (by rw [h]; exact nofun) more
    rw [h] at hmore
    rw [drain_of_frame hmore, ih, Intake.feed, Intake.feed]
    cases (drain max rest).kept <;> rfl

/-- The loop at the end of a stream takes what the loop would, and then judges what is left. -/
theorem drainAtEnd_eq (max : Nat) (buffer : Bytes) :
    drainAtEnd max buffer =
      ((drain max buffer).frames,
        match (drain max buffer).kept with
        | .error e => some (.frame e)
        | .ok left => if left.isEmpty then none else some .bytesRemaining) := by
  fun_induction drain max buffer with
  | case1 buffer h => exact drainAtEnd_of_waiting h
  | case2 buffer e rest h => exact drainAtEnd_of_refused h
  | case3 buffer f rest h _ ih => rw [drainAtEnd_of_frame h, ih]

/-- What the loop leaves holds no whole frame. -/
theorem decode_of_kept (h : (drain max buffer).kept = .ok rest) : decode max rest = .waiting := by
  fun_induction drain max buffer with
  | case1 buffer hwait =>
    cases h
    exact hwait
  | case2 => cases h
  | case3 buffer f after hframe _ ih => exact ih h

/-! ## Chunks -/

namespace Intake

/-- A reader before its stream. -/
def fresh : Intake := ⟨[], .ok []⟩

/-- The stream has ended: the frames, and the error if there is one. -/
def finish (max : Nat) (s : Intake) : List Frame × Option StreamError :=
  match s.kept with
  | .error e => (s.frames, some (.frame e))
  | .ok buffer => (s.frames ++ (drainAtEnd max buffer).1, (drainAtEnd max buffer).2)

/-- Two chunks are one. -/
theorem feed_feed (max : Nat) (s : Intake) (a b : Bytes) :
    feed max (feed max s a) b = feed max s (a ++ b) := by
  obtain ⟨frames, kept⟩ := s
  cases kept with
  | error e => rfl
  | ok buffer =>
    simp only [feed, ← List.append_assoc]
    rw [drain_append max (buffer ++ a) b, feed]
    cases (drain max (buffer ++ a)).kept with
    | error e => rfl
    | ok left => simp only [List.append_assoc]

/-- **A row of chunks is one chunk**, as soon as the reader has run at all. -/
theorem foldl_feed (max : Nat) (s : Intake) (chunk : Bytes) (chunks : List Bytes) :
    chunks.foldl (feed max) (feed max s chunk) = feed max s (chunk ++ chunks.flatten) := by
  induction chunks generalizing chunk with
  | nil => simp
  | cons c cs ih => rw [List.foldl_cons, feed_feed, ih, List.flatten_cons, List.append_assoc]

/-- A fresh reader stays one until the first octet. -/
theorem feed_fresh_nil (max : Nat) : feed max fresh [] = fresh := by
  have h : decode max [] = .waiting := decode_of_short (by decide)
  simp [feed, fresh, drain_of_waiting h]

end Intake

/-- Reads a stream that arrives in chunks: runs the loop after each of them, and looks once more at
the end. -/
def readChunks (max : Nat) (chunks : List Bytes) : List Frame × Option StreamError :=
  (chunks.foldl (Intake.feed max) .fresh).finish max

/-- The state of a reader after some chunks is what the loop makes of the octets of all of them. -/
theorem foldl_feed_fresh (max : Nat) (chunks : List Bytes) :
    chunks.foldl (Intake.feed max) .fresh = drain max chunks.flatten := by
  have h := Intake.foldl_feed max .fresh [] chunks
  rw [Intake.feed_fresh_nil] at h
  rw [h]
  rfl

/-- **A stream that arrives in chunks is read as if it had been there from the start.** -/
theorem readChunks_eq (max : Nat) (chunks : List Bytes) :
    readChunks max chunks = drainAtEnd max chunks.flatten := by
  rw [readChunks, foldl_feed_fresh, drainAtEnd_eq, Intake.finish]
  cases h : (drain max chunks.flatten).kept with
  | error e => rfl
  | ok left => simp [drainAtEnd_of_waiting (decode_of_kept h)]

/-! ## Written frames -/

/-- A frame that can be written: its check word is that of its payload, and the payload is neither
longer than the limit nor too long for the header. -/
def Writable (max : Nat) (f : Frame) : Prop :=
  f = ofPayload f.type f.payload ∧ f.payload.length ≤ max ∧ f.payload.length < 2 ^ 32

instance (max : Nat) (f : Frame) : Decidable (Writable max f) :=
  inferInstanceAs (Decidable (_ ∧ _))

theorem Writable.verify (h : f.Writable max) : f.verify = .ok () := by
  rw [h.1, Frame.verify]
  exact if_pos rfl

theorem Writable.encode (h : f.Writable max) : f.encode max = .ok f.toBytes := by
  rw [Frame.encode, if_neg (Nat.not_lt.mpr h.2.1)]

/-- **A frame that was written is read**, whatever follows it. -/
theorem decode_toBytes (h : f.Writable max) (more : Bytes) :
    decode max (f.toBytes ++ more) = .frame f more := by
  have hsound := h.verify
  obtain ⟨-, hmax, hfits⟩ := h
  obtain ⟨type, payload, checksum⟩ := f
  have hlength : Bytes.ofBigEndian (Bytes.bigEndian 4 payload.length) = payload.length := by
    rw [Bytes.ofBigEndian_bigEndian]
    exact Nat.mod_eq_of_lt hfits
  have hword : UInt32.ofNat (Bytes.ofBigEndian (Bytes.bigEndian 4 checksum.toNat)) = checksum := by
    rw [Bytes.ofBigEndian_bigEndian, show 256 ^ 4 = 2 ^ 32 from rfl,
      Nat.mod_eq_of_lt checksum.toNat_lt, UInt32.ofNat_toNat]
  have hbytes : toBytes ⟨type, payload, checksum⟩ ++ more =
      Bytes.bigEndian 4 payload.length ++
        type.octet :: (Bytes.bigEndian 4 checksum.toNat ++ (payload ++ more)) := by
    simp only [toBytes, List.append_assoc, List.cons_append]
  have hwhole : ¬ (payload ++ more).length < payload.length := by
    rw [List.length_append]
    omega
  rw [hbytes, decode_fields (Bytes.length_bigEndian 4 _) (Bytes.length_bigEndian 4 _), hlength,
    hword, if_neg (Nat.not_lt.mpr hmax), if_neg hwhole, FrameType.ofOctet_octet,
    List.take_left, List.drop_left]
  dsimp only
  rw [hsound]

theorem mapM_encode {frames : List Frame} (h : ∀ f ∈ frames, f.Writable max) :
    frames.mapM (encode max) = .ok (frames.map toBytes) := by
  induction frames with
  | nil => rfl
  | cons f fs ih =>
    rw [List.mapM_cons, (h f List.mem_cons_self).encode,
      ih fun g hg => h g (List.mem_cons_of_mem f hg)]
    rfl

/-- **A row of written frames is read whole**, and nothing is left of it. -/
theorem drain_toBytes {frames : List Frame} (h : ∀ f ∈ frames, f.Writable max) :
    drain max (frames.map toBytes).flatten = ⟨frames, .ok []⟩ := by
  induction frames with
  | nil => exact drain_of_waiting (decode_of_short (by decide))
  | cons f fs ih =>
    have hfirst := decode_toBytes (h f List.mem_cons_self) (fs.map toBytes).flatten
    rw [List.map_cons, List.flatten_cons, drain_of_frame hfirst,
      ih fun g hg => h g (List.mem_cons_of_mem f hg)]

/-! ## The stream -/

/-- **How a stream of frames is read.** Two ways of cutting the same octets into chunks give the
same frames and the same end, whatever the octets are. Each frame takes nine octets at least, so a
run of the loop and the whole reading take at most one frame for every nine octets that have come.
The octets of frames that were written give back exactly these frames under every cutting, with
nothing left in the buffer and no error. -/
theorem reading_of_chunks (max : Nat) :
    (∀ chunks chunks' : List Bytes, chunks.flatten = chunks'.flatten →
      readChunks max chunks = readChunks max chunks') ∧
    (∀ (buffer rest : Bytes) (f : Frame), decode max buffer = .frame f rest →
      rest.length + 9 ≤ buffer.length) ∧
    (∀ buffer : Bytes, (drain max buffer).frames.length ≤ buffer.length / 9) ∧
    (∀ chunks : List Bytes, (readChunks max chunks).1.length ≤ chunks.flatten.length / 9) ∧
    (∀ frames : List Frame, (∀ f ∈ frames, f.Writable max) →
      frames.mapM (encode max) = .ok (frames.map toBytes) ∧
      ∀ chunks : List Bytes, chunks.flatten = (frames.map toBytes).flatten →
        chunks.foldl (Intake.feed max) .fresh = ⟨frames, .ok []⟩ ∧
        readChunks max chunks = (frames, none)) := by
  have hloop : ∀ buffer : Bytes, (drain max buffer).frames.length ≤ buffer.length / 9 := by
    intro buffer
    exact (Nat.le_div_iff_mul_le (by decide)).mpr (length_frames_drain max buffer)
  refine ⟨?_, ?_, hloop, ?_, ?_⟩
  · intro chunks chunks' h
    rw [readChunks_eq, readChunks_eq, h]
  · intro buffer rest f h
    have := length_of_decode h
    rw [headerSize] at this
    omega
  · intro chunks
    rw [readChunks_eq, drainAtEnd_eq]
    exact hloop chunks.flatten
  · intro frames h
    refine ⟨mapM_encode h, ?_⟩
    intro chunks hchunks
    have hkept := drain_toBytes h
    rw [← hchunks] at hkept
    refine ⟨?_, ?_⟩
    · rw [foldl_feed_fresh, hkept]
    · rw [readChunks_eq, drainAtEnd_eq, hkept]
      rfl

/-- Two frames, cut inside the first header and between the second header and its empty payload. -/
theorem reading_of_chunks_cut :
    (∀ f ∈ [message [0x61, 0x62, 0x63], close], f.Writable 3) ∧
    readChunks 3
      [[0, 0], [0, 3, 1, 0x35, 0x24, 0x41, 0xc2, 0x61, 0x62], [],
        [0x63, 0, 0, 0, 0, 6, 0, 0, 0], [0]] =
      ([message [0x61, 0x62, 0x63], close], none) := by
  have hwritable : ∀ f ∈ [message [0x61, 0x62, 0x63], close], f.Writable 3 := by
    decide +kernel
  have h := (reading_of_chunks 3).2.2.2.2 _ hwritable
  exact ⟨hwritable, (h.2 _ (by decide +kernel)).2⟩

end Frame

end PeerRpc
