import PeerRpc.Cbor.Cursor

/-!
# PeerRpc.Proofs.Cbor.Heads -- a head that was written is read back

`Cursor.At` and `Cursor.Ahead` say where a cursor stands: in front of some octets, or in front of a
head and some octets, where the head may have been taken back. `Cursor.pull` reads the head in
either case (`Cursor.pull_ahead`), provided its argument is not wider than 64 bits
(`Head.Fits`).
-/

namespace PeerRpc

namespace Cbor

namespace Cursor

/-- The cursor stands in front of a head that was taken back, if any, and these octets. -/
structure At (c : Cursor) (held : Option Head) (bs : Bytes) : Prop where
  held : c.held = held
  rest : c.rest = bs
  /-- Loops have a turn for every octet. -/
  short : bs.length < c.bound
  /-- No length ahead is wider than 64 bits. -/
  small : c.bound ≤ 2 ^ 64

/-- The cursor stands in front of this head and these octets. -/
def Ahead (c : Cursor) (h : Head) (bs : Bytes) : Prop :=
  c.At (some h) bs ∨ c.At none (h.encode ++ bs)

theorem At.push {c : Cursor} {bs : Bytes} (hc : c.At none bs) (h : Head) : (c.push h).Ahead h bs :=
  Or.inl ⟨rfl, hc.rest, hc.short, hc.small⟩

/-- The cursor behind some of the octets ahead. -/
theorem At.past {c c' : Cursor} {xs ys : Bytes} (hc : c.At none (xs ++ ys)) (hheld : c'.held = none)
    (hrest : c'.rest = ys) (hbound : c'.bound = c.bound) : c'.At none ys := by
  have hshort := hc.short
  rw [List.length_append] at hshort
  exact ⟨hheld, hrest, by omega, hbound ▸ hc.small⟩

/-- The cursor behind the first octet ahead. -/
theorem At.tail {c c' : Cursor} {x : UInt8} {ys : Bytes} (hc : c.At none (x :: ys))
    (hheld : c'.held = none) (hrest : c'.rest = ys) (hbound : c'.bound = c.bound) :
    c'.At none ys := At.past (show c.At none ([x] ++ ys) from hc) hheld hrest hbound

/-- Octets that lie ahead are read. -/
theorem take_at {c : Cursor} {xs ys : Bytes} (hc : c.At none (xs ++ ys)) :
    ∃ c', take xs.length c = .ok (xs, c') ∧ c'.At none ys := by
  refine ⟨{ c with rest := c.rest.drop xs.length, offset := c.offset + xs.length }, ?_, ?_⟩
  · unfold take
    rw [hc.rest, List.take_left, if_neg (Nat.lt_irrefl _)]
  · refine hc.past hc.held ?_ rfl
    show c.rest.drop xs.length = ys
    rw [hc.rest, List.drop_left]

end Cursor

/-- The argument of a head is not wider than 64 bits. -/
def Head.Fits : Head → Prop
  | positive n => n < 2 ^ 64
  | negative n => n < 2 ^ 64
  | bytes (some n) => n < 2 ^ 64
  | text (some n) => n < 2 ^ 64
  | array (some n) => n < 2 ^ 64
  | map (some n) => n < 2 ^ 64
  | tag n => n < 2 ^ 64
  | simple n => n < 24
  | _ => True

namespace Cursor

/-- The octet in front of an argument holds the major type and the format. -/
theorem toNat_lead {major minor : Nat} (hmajor : major < 8) (hminor : minor < 32) :
    (UInt8.ofNat (major * 32 + minor)).toNat = major * 32 + minor := by
  rw [UInt8.toNat_ofNat']
  omega

/-- The head in a first octet with a short argument. -/
theorem pull_short {c : Cursor} {major minor : Nat} {bs : Bytes} (hmajor : major < 7)
    (hminor : minor < 24) (hc : c.At none (.ofNat (major * 32 + minor) :: bs)) {h : Head}
    (hh : plainHead c.offset major (some minor) = .ok h) :
    ∃ c', pull c = .ok (h, c') ∧ c'.At none bs := by
  have hlead := toNat_lead (Nat.lt_succ_of_lt hmajor) (by omega : minor < 32)
  have h₁ : (major * 32 + minor) / 32 = major := by omega
  have h₂ : (major * 32 + minor) % 32 = minor := by omega
  refine ⟨{ c with rest := bs, offset := c.offset + 1 }, ?_, hc.tail hc.held rfl rfl⟩
  simp only [pull, hc.held, hc.rest, hlead, h₁, h₂, if_pos hminor, if_neg (Nat.ne_of_lt hmajor), hh]
  rfl

/-- The octets behind the first one are taken. -/
theorem take_behind {c : Cursor} {b : UInt8} {xs bs : Bytes} (hc : c.At none (b :: (xs ++ bs))) :
    ∃ c', take xs.length { rest := xs ++ bs, offset := c.offset + 1, bound := c.bound } =
      .ok (xs, c') ∧ c'.At none bs :=
  take_at (hc.tail rfl rfl rfl)

/-- The head in a first octet with an argument that follows. -/
theorem pull_long {c : Cursor} {major minor : Nat} {xs bs : Bytes} (hmajor : major < 7)
    (hminor : 24 ≤ minor) (hminor' : minor < 28) (hxs : xs.length = 2 ^ (minor - 24))
    (hc : c.At none (.ofNat (major * 32 + minor) :: (xs ++ bs))) {h : Head}
    (hh : plainHead c.offset major (some (Bytes.ofBigEndian xs)) = .ok h) :
    ∃ c', pull c = .ok (h, c') ∧ c'.At none bs := by
  have hlead := toNat_lead (Nat.lt_succ_of_lt hmajor) (by omega : minor < 32)
  have h₁ : (major * 32 + minor) / 32 = major := by omega
  have h₂ : (major * 32 + minor) % 32 = minor := by omega
  obtain ⟨c', htake, hc'⟩ := take_behind hc
  refine ⟨c', ?_, hc'⟩
  rw [hxs] at htake
  simp only [pull, hc.held, hc.rest, hlead, h₁, h₂, if_neg (Nat.not_lt.mpr hminor),
    if_pos hminor', if_neg (Nat.ne_of_lt hmajor)]
  show (take (2 ^ (minor - 24)) _).bind _ = _
  rw [htake]
  show (plainHead c.offset major (some (Bytes.ofBigEndian xs))).bind (fun h => .ok (h, c')) = _
  rw [hh]
  rfl

/-- The head of an item in parts. -/
theorem pull_open {c : Cursor} {major : Nat} {bs : Bytes} (hmajor : major < 7)
    (hc : c.At none (.ofNat (major * 32 + 31) :: bs)) {h : Head}
    (hh : plainHead c.offset major none = .ok h) :
    ∃ c', pull c = .ok (h, c') ∧ c'.At none bs := by
  have hlead := toNat_lead (Nat.lt_succ_of_lt hmajor) (by omega : 31 < 32)
  have h₁ : (major * 32 + 31) / 32 = major := by omega
  have h₂ : (major * 32 + 31) % 32 = 31 := by omega
  refine ⟨{ c with rest := bs, offset := c.offset + 1 }, ?_, hc.tail hc.held rfl rfl⟩
  simp only [pull, hc.held, hc.rest, hlead, h₁, h₂, if_neg (Nat.ne_of_lt hmajor), hh]
  rfl

/-- The head with an argument in its shortest form. -/
theorem pull_argument {c : Cursor} {major a : Nat} {bs : Bytes} (hmajor : major < 7)
    (ha : a < 2 ^ 64) (hc : c.At none (encodeArgument major a ++ bs)) {h : Head}
    (hh : ∀ offset, plainHead offset major (some a) = .ok h) :
    ∃ c', pull c = .ok (h, c') ∧ c'.At none bs := by
  have hread (k : Nat) (hk : a < 256 ^ k) : Bytes.ofBigEndian (Bytes.bigEndian k a) = a := by
    rw [Bytes.ofBigEndian_bigEndian, Nat.mod_eq_of_lt hk]
  -- the argument fits the first octet, or one, two, four or eight more
  unfold encodeArgument at hc
  dsimp only at hc
  split at hc
  · next hlt => exact pull_short hmajor hlt hc (hh _)
  · split at hc
    · next hlt =>
        refine pull_long hmajor (by omega) (by omega) (Bytes.length_bigEndian 1 a) hc ?_
        rw [hread 1 (by simpa using hlt)]
        exact hh _
    · split at hc
      · next hlt =>
          refine pull_long hmajor (by omega) (by omega) (Bytes.length_bigEndian 2 a) hc ?_
          rw [hread 2 (by simpa using hlt)]
          exact hh _
      · split at hc
        · next hlt =>
            refine pull_long hmajor (by omega) (by omega) (Bytes.length_bigEndian 4 a) hc ?_
            rw [hread 4 (by simpa using hlt)]
            exact hh _
        · refine pull_long hmajor (by omega) (by omega) (Bytes.length_bigEndian 8 a) hc ?_
          rw [hread 8 (by simpa using ha)]
          exact hh _

end Cursor

/-! ## Numbers -/

/-- A narrower pattern fits its width. -/
theorem round_lt (f : Binary.Format) (negative : Bool) (m : Nat) (q : Int) :
    f.round negative m q < 2 ^ (f.fraction + f.exponent + 1) := by
  -- the sign, and below it a pattern that never exceeds that of infinity
  have hsign : (if negative then 2 ^ (f.fraction + f.exponent) else 0) ≤
      2 ^ (f.fraction + f.exponent) := by
    cases negative
    · exact Nat.zero_le _
    · exact Nat.le_refl _
  have hpos : 0 < 2 ^ (f.fraction + f.exponent) := Nat.two_pow_pos _
  have htop : f.top * 2 ^ f.fraction < 2 ^ (f.fraction + f.exponent) := by
    have hf : 0 < 2 ^ f.fraction := Nat.two_pow_pos _
    have he : 0 < 2 ^ f.exponent := Nat.two_pow_pos _
    rw [Nat.pow_add, Nat.mul_comm (2 ^ f.fraction)]
    exact Nat.mul_lt_mul_of_pos_right (by unfold Binary.Format.top; omega) hf
  rw [Nat.pow_succ]
  unfold Binary.Format.round
  dsimp only
  split
  · omega
  · have hmin := fun field : Nat => Nat.min_le_right field (f.top * 2 ^ f.fraction)
    exact Nat.lt_of_le_of_lt (Nat.add_le_add hsign (hmin _)) (by omega)

theorem narrow?_lt {f : Binary.Format} {x : Binary64} {n : Nat} (h : x.narrow? f = some n) :
    n < 2 ^ (f.fraction + f.exponent + 1) := by
  unfold Binary64.narrow? at h
  split at h
  simp only [Option.ite_none_right_eq_some, Option.some.injEq] at h
  rw [← h.2]
  exact round_lt ..

namespace Cursor

/-- The head of a number with its octets. -/
theorem pull_float {c : Cursor} {minor : Nat} {xs bs : Bytes}
    (hminor : 24 ≤ minor) (hminor' : minor < 28) (hxs : xs.length = 2 ^ (minor - 24))
    (hc : c.At none (.ofNat (7 * 32 + minor) :: (xs ++ bs))) {h : Head}
    (hh : (match minor with
      | 24 => Head.simple (Bytes.ofBigEndian xs)
      | 25 => Head.float (Binary.half.widen (Bytes.ofBigEndian xs))
      | 26 => Head.float (Binary.single.widen (Bytes.ofBigEndian xs))
      | _ => Head.float ⟨.ofNat (Bytes.ofBigEndian xs)⟩) = h) :
    ∃ c', pull c = .ok (h, c') ∧ c'.At none bs := by
  have hlead := toNat_lead (by omega : 7 < 8) (by omega : minor < 32)
  have h₁ : (7 * 32 + minor) / 32 = 7 := by omega
  have h₂ : (7 * 32 + minor) % 32 = minor := by omega
  obtain ⟨c', htake, hc'⟩ := take_behind hc
  refine ⟨c', ?_, hc'⟩
  rw [hxs] at htake
  simp only [pull, hc.held, hc.rest, hlead, h₁, h₂, if_neg (Nat.not_lt.mpr hminor),
    if_pos hminor']
  show (take (2 ^ (minor - 24)) _).bind _ = _
  rw [htake]
  subst hh
  obtain rfl | rfl | rfl | rfl : minor = 24 ∨ minor = 25 ∨ minor = 26 ∨ minor = 27 := by omega
  all_goals rfl

/-- The head of a number, in its narrowest format. -/
theorem pull_encodeFloat {c : Cursor} {bs : Bytes} (x : Binary64)
    (hc : c.At none (encodeFloat x ++ bs)) : ∃ c', pull c = .ok (.float x, c') ∧ c'.At none bs := by
  -- a half, a single or a double, whichever is the narrowest that holds the number
  unfold encodeFloat at hc
  split at hc
  · next m hm =>
      refine pull_float (by omega : 24 ≤ 25) (by omega) (Bytes.length_bigEndian 2 m) hc ?_
      have hlt : m < 256 ^ 2 := narrow?_lt hm
      show Head.float (Binary.half.widen (Bytes.ofBigEndian (Bytes.bigEndian 2 m))) = _
      rw [Bytes.ofBigEndian_bigEndian, Nat.mod_eq_of_lt hlt, Binary64.widen_of_narrow? hm]
  · split at hc
    · next m hm =>
        refine pull_float (by omega : 24 ≤ 26) (by omega) (Bytes.length_bigEndian 4 m) hc ?_
        have hlt : m < 256 ^ 4 := narrow?_lt hm
        show Head.float (Binary.single.widen (Bytes.ofBigEndian (Bytes.bigEndian 4 m))) = _
        rw [Bytes.ofBigEndian_bigEndian, Nat.mod_eq_of_lt hlt, Binary64.widen_of_narrow? hm]
    · refine pull_float (by omega : 24 ≤ 27) (by omega) (Bytes.length_bigEndian 8 _) hc ?_
      have hlt : x.bits.toNat < 256 ^ 8 := x.bits.toNat_lt
      show Head.float ⟨.ofNat (Bytes.ofBigEndian (Bytes.bigEndian 8 x.bits.toNat))⟩ = _
      rw [Bytes.ofBigEndian_bigEndian, Nat.mod_eq_of_lt hlt, UInt64.ofNat_toNat]

/-- The head of an item with a length, or in parts. -/
theorem pull_length {c : Cursor} {major : Nat} {bs : Bytes} {len : Option Nat}
    (hmajor : major < 7) (hlen : ∀ a ∈ len, a < 2 ^ 64)
    (hc : c.At none (encodeLength major len ++ bs)) {h : Head}
    (hh : ∀ offset, plainHead offset major len = .ok h) :
    ∃ c', pull c = .ok (h, c') ∧ c'.At none bs := by
  cases len with
  | some a => exact pull_argument hmajor (hlen a rfl) hc hh
  | none => exact pull_open hmajor hc (hh _)

/-- **A head that was written, or taken back, is read.** -/
theorem pull_ahead {c : Cursor} {h : Head} {bs : Bytes} (hc : c.Ahead h bs)
    (hh : h.Fits) : ∃ c', pull c = .ok (h, c') ∧ c'.At none bs := by
  rcases hc with hat | hat
  · -- a head that was taken back is held beside the octets
    refine ⟨{ c with held := none, offset := c.offset + h.size }, ?_, rfl, hat.rest, hat.short,
      hat.small⟩
    simp only [pull, hat.held]
  · have hheld := hat.held
    have hrest := hat.rest
    have hfits {len : Option Nat} (hlen : ∀ a, len = some a → a < 2 ^ 64) :
        ∀ a ∈ len, a < 2 ^ 64 := fun a ha => hlen a (Option.mem_def.mp ha)
    cases h with
    | positive m => exact pull_argument (by omega) hh hat fun _ => rfl
    | negative m => exact pull_argument (by omega) hh hat fun _ => rfl
    | bytes len =>
        refine pull_length (by omega) (hfits ?_) hat fun _ => rfl
        rintro a rfl
        exact hh
    | text len =>
        refine pull_length (by omega) (hfits ?_) hat fun _ => rfl
        rintro a rfl
        exact hh
    | array len =>
        refine pull_length (by omega) (hfits ?_) hat fun _ => rfl
        rintro a rfl
        exact hh
    | map len =>
        refine pull_length (by omega) (hfits ?_) hat fun _ => rfl
        rintro a rfl
        exact hh
    | tag m => exact pull_argument (by omega) hh hat fun _ => rfl
    | simple m =>
        have hm : m < 24 := hh
        have hlead := toNat_lead (by omega : 7 < 8) (by omega : m < 32)
        have hbytes : Head.encode (.simple m) = [.ofNat (7 * 32 + m)] := if_pos hm
        have h₁ : (7 * 32 + m) / 32 = 7 := by omega
        have h₂ : (7 * 32 + m) % 32 = m := by omega
        rw [hbytes] at hat hrest
        refine ⟨{ rest := bs, offset := c.offset + 1, bound := c.bound }, ?_, hat.tail rfl rfl rfl⟩
        simp only [pull, hheld, hrest, List.cons_append, List.nil_append, hlead, h₁, h₂, if_pos hm]
        rfl
    | float x => exact pull_encodeFloat x hat
    | stop =>
        refine ⟨{ rest := bs, offset := c.offset + 1, bound := c.bound }, ?_, hat.tail rfl rfl rfl⟩
        have hbytes : c.rest = 255 :: bs := hrest
        simp only [pull, hheld, hbytes]
        rfl

end Cursor

end Cbor

end PeerRpc
