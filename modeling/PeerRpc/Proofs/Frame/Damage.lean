import PeerRpc.Proofs.Crc32.Bursts
import PeerRpc.Proofs.Frame.Grammar

/-!
# PeerRpc.Proofs.Frame.Damage -- damage to a frame is found

A frame on its way may lose bits. `Damage` says which losses are spoken of: in up to four octets of
the payload in a row, in the check word, or in one bit of the type. The length is left out: it says
where the payload ends, and nothing checks it.

Damaged octets still begin with a header, and it announces as many octets as there are, so a look at
them neither waits nor finds the frame too large. A payload with a burst of at most four octets has
another check word (`Begins.of_payload`), a damaged check word is not that of the payload
(`Begins.of_checkWord`), and one bit makes no type of another (`FrameType.flip_octet`). So the
damage is found in each case, whatever octets follow (`damage_found`): a frame with a wrong check
word is dropped, and one of an unknown type stays in the buffer.
-/

namespace PeerRpc

/-! ## Octets that are altered -/

namespace Bytes

variable {k n : Nat} {bs bs' : Bytes}

/-- `bs'` is not `bs`, but differs from it only within the `n` places from place `k` on. -/
structure AlteredWithin (k n : Nat) (bs bs' : Bytes) : Prop where
  length : bs'.length = bs.length
  changed : bs' ≠ bs
  elsewhere : ∀ i, ¬(k ≤ i ∧ i < k + n) → bs'[i]? = bs[i]?

/-- There are octets at the places where octets are altered. -/
theorem AlteredWithin.le_length (h : AlteredWithin k n bs bs') : k ≤ bs.length := by
  refine Nat.le_of_not_lt fun hk => h.changed (List.ext_getElem? fun i => ?_)
  by_cases hi : i < k
  · exact h.elsewhere i fun hwithin => Nat.not_lt.mpr hwithin.1 hi
  · have hlength : bs.length ≤ i := by omega
    rw [List.getElem?_eq_none hlength, List.getElem?_eq_none (h.length ▸ hlength)]

/-- What stands before the altered places is kept. -/
theorem AlteredWithin.behind {head body : Bytes} (h : AlteredWithin k n (head ++ body) bs')
    (hk : head.length ≤ k) :
    ∃ body', bs' = head ++ body' ∧ AlteredWithin (k - head.length) n body body' := by
  have hhead : bs'.take head.length = head := by
    refine List.ext_getElem? fun i => ?_
    rw [List.getElem?_take]
    by_cases hi : i < head.length
    · rw [if_pos hi, h.elsewhere i (by omega), List.getElem?_append_left hi]
    · rw [if_neg hi, List.getElem?_eq_none (Nat.le_of_not_lt hi)]
  have hcut : head ++ bs'.drop head.length = bs' := by
    have htake := List.take_append_drop head.length bs'
    rwa [hhead] at htake
  refine ⟨bs'.drop head.length, hcut.symm, ?length, ?changed, ?elsewhere⟩
  case length => rw [List.length_drop, h.length, List.length_append, Nat.add_sub_cancel_left]
  case changed =>
    intro heq
    rw [heq] at hcut
    exact h.changed hcut.symm
  case elsewhere =>
    intro i hi
    rw [List.getElem?_drop, h.elsewhere _ (by omega),
      List.getElem?_append_right (Nat.le_add_right _ _), Nat.add_sub_cancel_left]

/-- What stands after the altered places is kept. -/
theorem AlteredWithin.front (h : AlteredWithin 0 n bs bs') :
    ∃ new, bs' = new ++ bs.drop n ∧ new.length = (bs.take n).length ∧ new ≠ bs.take n := by
  have hdrop : bs'.drop n = bs.drop n := by
    refine List.ext_getElem? fun i => ?_
    rw [List.getElem?_drop, List.getElem?_drop]
    exact h.elsewhere _ (by omega)
  have hcut : bs'.take n ++ bs.drop n = bs' := by rw [← hdrop, List.take_append_drop]
  refine ⟨bs'.take n, hcut.symm, ?_, ?_⟩
  · rw [List.length_take, List.length_take, h.length]
  · intro heq
    rw [heq, List.take_append_drop] at hcut
    exact h.changed hcut.symm

/-- **What is altered stands between what is not.** -/
theorem AlteredWithin.split (h : AlteredWithin k n bs bs') :
    ∃ before old new behind, bs = before ++ (old ++ behind) ∧ bs' = before ++ (new ++ behind) ∧
      new.length = old.length ∧ old.length ≤ n ∧ new ≠ old := by
  have hbefore : (bs.take k).length = k := List.length_take_of_le h.le_length
  rw [← List.take_append_drop k bs] at h
  obtain ⟨body', rfl, hbody⟩ := h.behind (Nat.le_of_eq hbefore)
  rw [hbefore, Nat.sub_self] at hbody
  obtain ⟨new, rfl, hlength, hne⟩ := hbody.front
  refine ⟨bs.take k, (bs.drop k).take n, new, (bs.drop k).drop n, ?_, rfl, hlength,
    List.length_take_le _ _, hne⟩
  rw [List.take_append_drop, List.take_append_drop]

/-- **The check word tells a burst of at most four octets.** -/
theorem AlteredWithin.checksum_ne (h : AlteredWithin k 4 bs bs') :
    Crc32.checksum bs' ≠ Crc32.checksum bs := by
  obtain ⟨before, old, new, behind, rfl, rfl, hlength, hroom, hne⟩ := h.split
  exact Crc32.checksum_ne before behind hlength hroom hne

/-- An octet with one bit turned over. -/
def flip (place : Nat) (b : UInt8) : UInt8 := b ^^^ UInt8.ofNat (2 ^ place)

end Bytes

/-- **One bit makes no type of another.** -/
theorem FrameType.flip_octet (t : FrameType) {place : Nat} (h : place < 8) :
    Bytes.flip place t.octet ≠ 0x01 ∧ Bytes.flip place t.octet ≠ 0x06 := by
  have hall : ∀ place < 8, Bytes.flip place t.octet ≠ 0x01 ∧ Bytes.flip place t.octet ≠ 0x06 := by
    cases t <;> decide
  exact hall place h

namespace Frame

variable {max size : Nat} {type : UInt8} {word : UInt32} {f : Frame} {bs bs' body rest : Bytes}

/-! ## Headers of damaged octets -/

/-- Only what is behind the header is altered. -/
theorem Begins.of_body {k n : Nat} (h : Begins bs size type word body) (hk : headerSize ≤ k)
    (haltered : Bytes.AlteredWithin k n bs bs') :
    ∃ body', Begins bs' size type word body' ∧
      Bytes.AlteredWithin (k - headerSize) n body body' := by
  have hoctets : bs =
      (Bytes.bigEndian 4 size ++ type :: Bytes.bigEndian 4 word.toNat) ++ body := by
    rw [h.octets, List.append_assoc, List.cons_append]
  have hhead : (Bytes.bigEndian 4 size ++ type :: Bytes.bigEndian 4 word.toNat).length =
      headerSize := by
    simp [headerSize]
  rw [hoctets] at haltered
  obtain ⟨body', rfl, hbody⟩ := haltered.behind (Nat.le_trans (Nat.le_of_eq hhead) hk)
  rw [hhead] at hbody
  refine ⟨body', ⟨h.fits, ?_⟩, hbody⟩
  rw [List.append_assoc, List.cons_append]

/-- Only the check word is altered. -/
theorem Begins.of_checkWord (h : Begins bs size type word body)
    (haltered : Bytes.AlteredWithin 5 4 bs bs') :
    ∃ word', word' ≠ word ∧ Begins bs' size type word' body := by
  have hoctets : bs =
      (Bytes.bigEndian 4 size ++ [type]) ++ (Bytes.bigEndian 4 word.toNat ++ body) := by
    rw [h.octets, List.append_assoc, List.singleton_append]
  have hhead : (Bytes.bigEndian 4 size ++ [type]).length = 5 := by simp
  have hword : (Bytes.bigEndian 4 word.toNat).length = 4 := Bytes.length_bigEndian _ _
  rw [hoctets] at haltered
  obtain ⟨tail, rfl, htail⟩ := haltered.behind (Nat.le_of_eq hhead)
  rw [hhead, Nat.sub_self] at htail
  obtain ⟨new, rfl, hlength, hne⟩ := htail.front
  rw [List.take_left' hword] at hlength hne
  rw [List.drop_left' hword]
  -- any four octets are the big-endian word of a number
  have hnew := Bytes.bigEndian_ofBigEndian new
  have hbound := Bytes.ofBigEndian_lt new
  rw [hlength, hword] at hnew hbound
  have hnumber : (UInt32.ofNat (Bytes.ofBigEndian new)).toNat = Bytes.ofBigEndian new :=
    UInt32.toNat_ofNat_of_lt' hbound
  refine ⟨.ofNat (Bytes.ofBigEndian new), ?_, h.fits, ?_⟩
  · intro heq
    rw [← heq, hnumber, hnew] at hne
    exact hne rfl
  · rw [hnumber, hnew, List.append_assoc, List.singleton_append]

/-- Only the type is altered. -/
theorem Begins.of_type (h : Begins bs size type word body) (g : UInt8 → UInt8) :
    Begins (bs.modify 4 g) size (g type) word body := by
  have hsize := Bytes.length_bigEndian 4 size
  refine ⟨h.fits, ?_⟩
  rw [h.octets, List.modify_eq_take_drop, List.take_left' hsize, List.drop_left' hsize]
  rfl

/-! ## Damage -/

/-- Damage to the octets of a frame, in one of its parts. -/
inductive Damage (bs : Bytes) : Bytes → Prop
  /-- Up to four octets of the payload in a row are altered. -/
  | payload {k : Nat} {bs' : Bytes} (behind : headerSize ≤ k)
      (altered : Bytes.AlteredWithin k 4 bs bs') : Damage bs bs'
  /-- The check word is altered. -/
  | checkWord {bs' : Bytes} (altered : Bytes.AlteredWithin 5 4 bs bs') : Damage bs bs'
  /-- One bit of the type is turned over. -/
  | type {place : Nat} (bound : place < 8) : Damage bs (bs.modify 4 (Bytes.flip place))

/-- The octets of a frame begin with its header. -/
theorem Writable.begins (h : f.Writable max) :
    Begins f.toBytes f.payload.length f.type.octet f.checksum f.payload := ⟨h.2.2, rfl⟩

/-- What a look at damaged octets comes to, whatever follows them: the check word is wrong and the
frame is dropped, or there is no such type and everything stays in the buffer. -/
theorem Damage.finding (h : f.Writable max) (hdamage : Damage f.toBytes bs') (rest : Bytes) :
    ∃ e left, Finding max (bs' ++ rest) (.refused e left) ∧
      ((∃ word actual, e = .badChecksum word actual ∧ left = rest) ∨
        ∃ type, e = .unknownType type ∧ left = bs' ++ rest) := by
  have hfits : f.payload.length ≤ max := h.2.1
  have hchecksum : f.checksum = Crc32.checksum f.payload := congrArg Frame.checksum h.1
  cases hdamage with
  | payload behind altered =>
      obtain ⟨payload, hbegins, hpayload⟩ := h.begins.of_body behind altered
      rw [← hpayload.length] at hbegins hfits
      refine ⟨_, _, .badChecksum (hbegins.append rest) hfits ?_, Or.inl ⟨_, _, rfl, rfl⟩⟩
      rw [hchecksum]
      exact hpayload.checksum_ne.symm
  | checkWord altered =>
      obtain ⟨word, hword, hbegins⟩ := h.begins.of_checkWord altered
      refine ⟨_, _, .badChecksum (hbegins.append rest) hfits ?_, Or.inl ⟨_, _, rfl, rfl⟩⟩
      rw [← hchecksum]
      exact hword
  | @type place bound =>
      have hbegins := h.begins.of_type (Bytes.flip place)
      exact ⟨_, _, .unknownType (hbegins.append rest) hfits (f.type.flip_octet bound),
        Or.inr ⟨_, rfl, rfl⟩⟩

/-- **Damage to a frame is found.** Whatever bits are lost in up to four octets of its payload in a
row, in its check word or in one place of its type, a look at what has become of its octets refuses
them as invalid data, whatever octets follow. The frame is dropped, or it stays in the buffer if its
type is the damaged part. -/
theorem damage_found (h : f.Writable max) :
    f.encode max = .ok f.toBytes ∧
    ∀ bs', Damage f.toBytes bs' → ∀ rest, ∃ e left,
      decode max (bs' ++ rest) = .refused e left ∧
      (StreamError.frame e).kind = .invalidData ∧
      ((∃ word actual, e = .badChecksum word actual ∧ left = rest) ∨
        ∃ type, e = .unknownType type ∧ left = bs' ++ rest) := by
  refine ⟨h.encode, fun bs' hdamage rest => ?_⟩
  obtain ⟨e, left, hfinding, hcause⟩ := hdamage.finding h rest
  exact ⟨e, left, hfinding.decode_eq, rfl, hcause⟩

/-- A burst of three bits in two octets of a payload, with the beginning of another frame behind
it. -/
theorem damage_found_burst :
    (message [0x61, 0x62, 0x63]).Writable 3 ∧
    (message [0x61, 0x62, 0x63]).toBytes =
      [0, 0, 0, 3, 1, 0x35, 0x24, 0x41, 0xc2, 0x61, 0x62, 0x63] ∧
    Damage (message [0x61, 0x62, 0x63]).toBytes
      [0, 0, 0, 3, 1, 0x35, 0x24, 0x41, 0xc2, 0x61, 0x60, 0xe2] ∧
    ∃ e left, decode 3 ([0, 0, 0, 3, 1, 0x35, 0x24, 0x41, 0xc2, 0x61, 0x60, 0xe2] ++ [0, 0]) =
      .refused e left ∧ (StreamError.frame e).kind = .invalidData := by
  have hwritable : (message [0x61, 0x62, 0x63]).Writable 3 := by decide +kernel
  have hbytes : (message [0x61, 0x62, 0x63]).toBytes =
      [0, 0, 0, 3, 1, 0x35, 0x24, 0x41, 0xc2, 0x61, 0x62, 0x63] := by decide +kernel
  have hdamage : Damage (message [0x61, 0x62, 0x63]).toBytes
      [0, 0, 0, 3, 1, 0x35, 0x24, 0x41, 0xc2, 0x61, 0x60, 0xe2] := by
    rw [hbytes]
    have hsame : ∀ i < 10, ([0, 0, 0, 3, 1, 0x35, 0x24, 0x41, 0xc2, 0x61, 0x60, 0xe2] : Bytes)[i]? =
        ([0, 0, 0, 3, 1, 0x35, 0x24, 0x41, 0xc2, 0x61, 0x62, 0x63] : Bytes)[i]? := by decide
    refine .payload (k := 10) (by decide) ⟨rfl, by decide, fun i hi => ?_⟩
    by_cases hbefore : i < 10
    · exact hsame i hbefore
    · have hend : 12 ≤ i := by omega
      rw [List.getElem?_eq_none hend, List.getElem?_eq_none hend]
  obtain ⟨e, left, hdecode, hkind, -⟩ := (damage_found hwritable).2 _ hdamage [0, 0]
  exact ⟨hwritable, hbytes, hdamage, e, left, hdecode, hkind⟩

end Frame

end PeerRpc
