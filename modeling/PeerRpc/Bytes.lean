import PeerRpc.Power

/-!
# PeerRpc.Bytes -- octet strings and big-endian words

A message is an octet string, and every number inside a header travels with its most significant
octet first. `bigEndian k n` writes the low `k` octets of `n`; `ofBigEndian` reads an octet string
back as one number. The two meet in `ofBigEndian_bigEndian`: what is read back is `n` modulo
`256 ^ k`, so a number that fits its field survives and a longer one is cut. The other way round
nothing is lost (`bigEndian_ofBigEndian`).
-/

namespace PeerRpc

/-- An octet string. -/
abbrev Bytes := List UInt8

namespace Bytes

/-- The low `k` octets of `n`, most significant first. -/
def bigEndian : Nat → Nat → Bytes
  | 0, _ => []
  | k + 1, n => UInt8.ofNat (n / 256 ^ k % 256) :: bigEndian k n

/-- The number an octet string spells, most significant octet first. -/
def ofBigEndian (bs : Bytes) : Nat :=
  bs.foldl (fun acc b => acc * 256 + b.toNat) 0

@[simp] theorem length_bigEndian (k n : Nat) : (bigEndian k n).length = k := by
  induction k with
  | zero => rfl
  | succ k ih => simp [bigEndian, ih]

theorem foldl_ofBigEndian (bs : Bytes) (acc : Nat) :
    bs.foldl (fun a b => a * 256 + b.toNat) acc = acc * 256 ^ bs.length + ofBigEndian bs := by
  unfold ofBigEndian
  induction bs generalizing acc with
  | nil => simp
  | cons b bs ih =>
    rw [List.foldl_cons, List.foldl_cons, ih, ih (0 * 256 + b.toNat), List.length_cons,
      Nat.pow_succ, Nat.zero_mul, Nat.zero_add, Nat.add_mul, Nat.mul_assoc,
      Nat.mul_comm 256 (256 ^ bs.length), Nat.add_assoc]

theorem ofBigEndian_cons (b : UInt8) (bs : Bytes) :
    ofBigEndian (b :: bs) = b.toNat * 256 ^ bs.length + ofBigEndian bs := by
  have h := foldl_ofBigEndian bs b.toNat
  simpa [ofBigEndian] using h

theorem ofBigEndian_bigEndian (k n : Nat) : ofBigEndian (bigEndian k n) = n % 256 ^ k := by
  induction k with
  | zero => simp [bigEndian, ofBigEndian, Nat.mod_one]
  | succ k ih =>
    have hb : (UInt8.ofNat (n / 256 ^ k % 256)).toNat = n / 256 ^ k % 256 := by
      simp
    rw [bigEndian, ofBigEndian_cons, length_bigEndian, ih, hb, Nat.pow_succ, Nat.mod_mul,
      Nat.mul_comm, Nat.add_comm]

theorem ofBigEndian_lt (bs : Bytes) : ofBigEndian bs < 256 ^ bs.length := by
  induction bs with
  | nil => exact Nat.one_pos
  | cons b bs ih =>
    have hb : b.toNat + 1 ≤ 256 := b.toNat_lt
    rw [ofBigEndian_cons, List.length_cons]
    calc b.toNat * 256 ^ bs.length + ofBigEndian bs
        < b.toNat * 256 ^ bs.length + 256 ^ bs.length := Nat.add_lt_add_left ih _
      _ = (b.toNat + 1) * 256 ^ bs.length := (Nat.succ_mul _ _).symm
      _ ≤ 256 * 256 ^ bs.length := Nat.mul_le_mul_right _ hb
      _ = 256 ^ (bs.length + 1) := by rw [Nat.pow_succ, Nat.mul_comm]

/-- Octet strings of one length that spell the same number are the same. -/
theorem ofBigEndian_inj {a b : Bytes} (hlength : a.length = b.length)
    (h : ofBigEndian a = ofBigEndian b) : a = b := by
  induction a generalizing b with
  | nil => exact (List.length_eq_zero_iff.mp hlength.symm).symm
  | cons x xs ih =>
    cases b with
    | nil => cases hlength
    | cons y ys =>
      have hlen : xs.length = ys.length := Nat.succ.inj hlength
      have hxs := ofBigEndian_lt xs
      have hys := ofBigEndian_lt ys
      rw [ofBigEndian_cons, ofBigEndian_cons, hlen] at h
      rw [hlen] at hxs
      -- both numbers divided by the weight of their first octets
      have hpos : 0 < 256 ^ ys.length := Nat.lt_of_le_of_lt (Nat.zero_le _) hys
      have hdiv := congrArg (· / 256 ^ ys.length) h
      have hmod := congrArg (· % 256 ^ ys.length) h
      simp only [Nat.mul_add_mod_self_right, Nat.mod_eq_of_lt hxs, Nat.mod_eq_of_lt hys] at hmod
      simp only [Nat.add_comm (_ * _), Nat.add_mul_div_right _ _ hpos, Nat.div_eq_of_lt hxs,
        Nat.div_eq_of_lt hys, Nat.zero_add] at hdiv
      rw [UInt8.toNat_inj.mp hdiv, ih hlen hmod]

/-- **An octet string is the big-endian word of the number it spells.** -/
theorem bigEndian_ofBigEndian (bs : Bytes) : bigEndian bs.length (ofBigEndian bs) = bs := by
  refine ofBigEndian_inj (length_bigEndian _ _) ?_
  rw [ofBigEndian_bigEndian, Nat.mod_eq_of_lt (ofBigEndian_lt bs)]

end Bytes

end PeerRpc
