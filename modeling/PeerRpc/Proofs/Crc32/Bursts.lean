import Mathlib.Logic.Function.Iterate
import PeerRpc.Crc32

/-!
# PeerRpc.Proofs.Crc32.Bursts -- damage that a check word cannot miss

One formula says what a shift does to every bit of the register (`bit_shift`). It is linear, so a
shift goes through exclusive or (`shift_xor`), and the highest bit of the generator polynomial is
set, so the bit that falls out can be told from the result: no two registers are shifted to one
(`shift_injective`). An octet is eight shifts, so a run over any octets keeps different registers
apart (`run_injective`).

A run over at most four octets is so many shifts of the register and a word that is made of the
octets (`run_eq_shift`): the octets behind the first may as well be put into the register at once,
far enough up to arrive at its low end in time. Different octets make different words
(`word_inj`). So no two octet strings have the same check word that differ in at most four octets
in a row (`checksum_ne`).
-/

namespace PeerRpc

namespace Crc32

/-! ## Bits -/

/-- A bit of the register, the lowest one being the first. -/
def bit (r : UInt32) (i : Nat) : Bool := r.toBitVec.getLsbD i

theorem eq_of_bit {r s : UInt32} (h : ∀ i < 32, bit r i = bit s i) : r = s :=
  UInt32.toBitVec_inj.mp (BitVec.eq_of_getLsbD_eq h)

theorem bit_of_le (r : UInt32) {i : Nat} (h : 32 ≤ i) : bit r i = false :=
  BitVec.getLsbD_of_ge r.toBitVec i h

theorem bit_xor (r s : UInt32) (i : Nat) : bit (r ^^^ s) i = (bit r i ^^ bit s i) := by
  simp [bit]

theorem bit_and (r s : UInt32) (i : Nat) : bit (r &&& s) i = (bit r i && bit s i) := by
  simp [bit]

theorem bit_shiftRight_one (r : UInt32) (i : Nat) : bit (r >>> 1) i = bit r (i + 1) := by
  simp [bit, Nat.add_comm]

theorem bit_shiftLeft_eight (r : UInt32) {i : Nat} (hi : i < 32) :
    bit (r <<< 8) i = if i < 8 then false else bit r (i - 8) := by
  have hleft : bit (r <<< 8) i = (decide (i < 32) && !decide (i < 8) && bit r (i - 8)) := by
    simp only [bit, UInt32.toBitVec_shiftLeft]
    exact BitVec.getLsbD_shiftLeft ..
  rw [hleft, decide_eq_true hi]
  by_cases h : i < 8
  · simp [h]
  · simp [h]

theorem bit_octet (b : UInt8) {i : Nat} (hi : i < 32) :
    bit b.toUInt32 i = b.toBitVec.getLsbD i := by
  simp [bit, hi]

/-- The lowest bit decides whether a shift takes the polynomial. -/
theorem and_one_eq_one_iff (r : UInt32) : r &&& 1 = 1 ↔ bit r 0 = true := by
  have hone : ∀ i, bit 1 i = decide (i = 0) := fun i => by simp [bit]
  constructor
  · intro h
    have hbit : bit (r &&& 1) 0 = true := by rw [h, hone, decide_eq_true rfl]
    rwa [bit_and, hone, decide_eq_true rfl, Bool.and_true] at hbit
  · intro h
    refine eq_of_bit fun i _ => ?_
    rw [bit_and, hone]
    by_cases hi : i = 0
    · rw [hi, h, Bool.true_and]
    · rw [decide_eq_false hi, Bool.and_false]

/-- **What a shift does to every bit.** Each bit moves down by one place, and the lowest bit adds
the polynomial as it falls out. -/
theorem bit_shift (r : UInt32) (i : Nat) :
    bit (shift r) i = (bit r (i + 1) ^^ (bit r 0 && bit polynomial i)) := by
  rw [shift]
  by_cases h : r &&& 1 = 1
  · rw [if_pos h, bit_xor, bit_shiftRight_one, (and_one_eq_one_iff r).mp h, Bool.true_and]
  · have hlow : bit r 0 = false := Bool.eq_false_iff.mpr fun hb => h ((and_one_eq_one_iff r).mpr hb)
    rw [if_neg h, bit_shiftRight_one, hlow, Bool.false_and, Bool.xor_false]

/-! ## Shifts -/

/-- **A shift is linear.** -/
theorem shift_xor (r s : UInt32) : shift (r ^^^ s) = shift r ^^^ shift s := by
  refine eq_of_bit fun i _ => ?_
  simp only [bit_shift, bit_xor]
  cases bit r (i + 1) <;> cases bit s (i + 1) <;> cases bit r 0 <;> cases bit s 0 <;> simp

/-- **No two registers are shifted to one.** -/
theorem shift_injective : Function.Injective shift := by
  intro r s h
  have hbit : ∀ i, (bit r (i + 1) ^^ (bit r 0 && bit polynomial i)) =
      (bit s (i + 1) ^^ (bit s 0 && bit polynomial i)) := by
    intro i
    rw [← bit_shift, ← bit_shift, h]
  -- nothing moves into the highest place, so what is found there is the bit that has fallen out
  have hlow : bit r 0 = bit s 0 := by
    have htop := hbit 31
    rw [bit_of_le r (Nat.le_refl _), bit_of_le s (Nat.le_refl _),
      show bit polynomial 31 = true by decide] at htop
    simpa using htop
  refine eq_of_bit fun i _ => ?_
  cases i with
  | zero => exact hlow
  | succ i =>
      have hi := hbit i
      rw [hlow] at hi
      exact Bool.xor_left_inj.mp hi

theorem shift_iterate_xor (n : Nat) (r s : UInt32) :
    shift^[n] (r ^^^ s) = shift^[n] r ^^^ shift^[n] s := by
  induction n generalizing r s with
  | zero => rfl
  | succ n ih => simp only [Function.iterate_succ_apply, shift_xor, ih]

/-- As long as no set bit falls out, shifts only move bits. -/
theorem bit_shift_iterate {n : Nat} {r : UInt32} (h : ∀ i < n, bit r i = false) (i : Nat) :
    bit (shift^[n] r) i = bit r (i + n) := by
  induction n generalizing i with
  | zero => rfl
  | succ n ih =>
      have ih := ih fun i hi => h i (Nat.lt_succ_of_lt hi)
      rw [Function.iterate_succ_apply', bit_shift, ih, ih, Nat.zero_add, h n (Nat.lt_succ_self n),
        Bool.false_and, Bool.xor_false, Nat.add_right_comm, Nat.add_assoc]

/-- An octet is eight shifts. -/
theorem step_eq (r : UInt32) (b : UInt8) : step r b = shift^[8] (r ^^^ b.toUInt32) := rfl

/-- **A run keeps different registers apart.** -/
theorem run_injective (bs : Bytes) : Function.Injective (run · bs) := by
  induction bs with
  | nil => exact Function.injective_id
  | cons b bs ih =>
      intro r s h
      have hstep : shift^[8] (r ^^^ b.toUInt32) = shift^[8] (s ^^^ b.toUInt32) := ih h
      exact (UInt32.xor_left_inj _).mp (shift_injective.iterate 8 hstep)

/-! ## Words -/

/-- The word that is made of octets, the first of them in the lowest place. -/
def word : Bytes → UInt32
  | [] => 0
  | b :: bs => b.toUInt32 ^^^ (word bs <<< 8)

theorem bit_word_cons (b : UInt8) (bs : Bytes) {i : Nat} (hi : i < 32) :
    bit (word (b :: bs)) i = if i < 8 then b.toBitVec.getLsbD i else bit (word bs) (i - 8) := by
  rw [word, bit_xor, bit_octet b hi, bit_shiftLeft_eight _ hi]
  by_cases h : i < 8
  · rw [if_pos h, if_pos h, Bool.xor_false]
  · rw [if_neg h, if_neg h, BitVec.getLsbD_of_ge _ _ (Nat.le_of_not_lt h), Bool.false_xor]

/-- The places above the octets are empty. -/
theorem bit_word_of_le (bs : Bytes) {i : Nat} (h : 8 * bs.length ≤ i) :
    bit (word bs) i = false := by
  induction bs generalizing i with
  | nil => simp [word, bit]
  | cons b bs ih =>
      by_cases hi : i < 32
      · rw [List.length_cons] at h
        rw [bit_word_cons b bs hi, if_neg (by omega)]
        exact ih (by omega)
      · exact bit_of_le _ (Nat.le_of_not_lt hi)

/-- **Different octets make different words**, as long as there is room for all of them. -/
theorem word_inj {bs bs' : Bytes} (hlength : bs.length = bs'.length) (hroom : bs.length ≤ 4)
    (h : word bs = word bs') : bs = bs' := by
  induction bs generalizing bs' with
  | nil => exact (List.length_eq_zero_iff.mp hlength.symm).symm
  | cons b bs ih =>
      cases bs' with
      | nil => cases hlength
      | cons b' bs' =>
          have hlength' : bs.length = bs'.length := Nat.succ.inj hlength
          rw [List.length_cons] at hroom
          have hbit : ∀ i < 32, bit (word (b :: bs)) i = bit (word (b' :: bs')) i :=
            fun i _ => by rw [h]
          -- the first octets stand in the lowest places, the others above them
          have hfirst : b = b' := by
            refine UInt8.toBitVec_inj.mp (BitVec.eq_of_getLsbD_eq fun i hi => ?_)
            have hi' := hbit i (by omega)
            rwa [bit_word_cons b bs (by omega), bit_word_cons b' bs' (by omega), if_pos hi,
              if_pos hi] at hi'
          have hothers : word bs = word bs' := by
            refine eq_of_bit fun i _ => ?_
            by_cases hi : i + 8 < 32
            · have hi' := hbit (i + 8) hi
              rwa [bit_word_cons b bs hi, bit_word_cons b' bs' hi, if_neg (by omega),
                if_neg (by omega), Nat.add_sub_cancel] at hi'
            · rw [bit_word_of_le bs (by omega), bit_word_of_le bs' (by omega)]
          rw [hfirst, ih hlength' (by omega) hothers]

/-- A word that leaves the lowest place free arrives there after eight shifts. -/
theorem shift_iterate_word (bs : Bytes) (hroom : bs.length ≤ 3) :
    shift^[8] (word bs <<< 8) = word bs := by
  have hlow : ∀ i < 8, bit (word bs <<< 8) i = false := by
    intro i hi
    rw [bit_shiftLeft_eight _ (by omega), if_pos hi]
  refine eq_of_bit fun i _ => ?_
  rw [bit_shift_iterate hlow]
  by_cases hi : i + 8 < 32
  · rw [bit_shiftLeft_eight _ hi, if_neg (by omega), Nat.add_sub_cancel]
  · rw [bit_of_le _ (by omega), bit_word_of_le bs (by omega)]

/-- **A run over at most four octets** shifts the register with their word in it. -/
theorem run_eq_shift (r : UInt32) {bs : Bytes} (hroom : bs.length ≤ 4) :
    run r bs = shift^[8 * bs.length] (r ^^^ word bs) := by
  induction bs generalizing r with
  | nil => simp [word]
  | cons b bs ih =>
      rw [List.length_cons] at hroom
      have hword := shift_iterate_word bs (by omega)
      calc run r (b :: bs)
          = shift^[8 * bs.length] (shift^[8] (r ^^^ b.toUInt32) ^^^ word bs) := by
            rw [run_cons, ih _ (by omega), step_eq]
        _ = shift^[8 * bs.length] (shift^[8] (r ^^^ b.toUInt32 ^^^ (word bs <<< 8))) := by
            rw [shift_iterate_xor 8 (r ^^^ b.toUInt32), hword]
        _ = shift^[8 * (b :: bs).length] (r ^^^ word (b :: bs)) := by
            rw [← Function.iterate_add_apply, word, ← UInt32.xor_assoc]
            rfl

/-! ## Check words -/

/-- A run tells different octets apart, at most four of them. -/
theorem run_inj {r : UInt32} {bs bs' : Bytes} (hlength : bs.length = bs'.length)
    (hroom : bs.length ≤ 4) (h : run r bs = run r bs') : bs = bs' := by
  rw [run_eq_shift r hroom, run_eq_shift r (hlength ▸ hroom), hlength] at h
  have hwords := shift_injective.iterate _ h
  exact word_inj hlength hroom ((UInt32.xor_right_inj _).mp hwords)

/-- **No burst of at most four octets goes unnoticed.** -/
theorem checksum_ne (before behind : Bytes) {old new : Bytes} (hlength : new.length = old.length)
    (hroom : old.length ≤ 4) (h : new ≠ old) :
    Crc32.checksum (before ++ (new ++ behind)) ≠ Crc32.checksum (before ++ (old ++ behind)) := by
  intro heq
  -- the same octets before leave the same register, and those behind keep registers apart
  have hrun := (UInt32.xor_left_inj _).mp heq
  simp only [run_append] at hrun
  exact h (run_inj hlength (hlength ▸ hroom) (run_injective behind hrun))

end Crc32

end PeerRpc
