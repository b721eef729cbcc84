import PeerRpc.Power

/-!
# PeerRpc.Float.Binary -- binary interchange formats on bit patterns

A floating point number is kept as its bit pattern; no machine arithmetic is involved. A `Format`
says how many bits hold the fraction and the exponent. `Format.parts` reads a finite pattern as
`m * 2 ^ q`, `Format.round` is the inverse that rounds to the nearest pattern with ties to the
even one, and `narrow?` finds the pattern of a smaller format that stands for exactly the same
number, which is what a writer that wants the fewest octets needs. By definition
`widen (narrow? x) = x` whenever there is a narrower pattern.
-/

namespace PeerRpc

/-- The bit pattern of a number in the 64-bit format. -/
structure Binary64 where
  bits : UInt64
  deriving DecidableEq, Inhabited

namespace Binary

/-- A binary interchange format, by the widths of its two fields. -/
structure Format where
  fraction : Nat
  exponent : Nat
  deriving DecidableEq

/-- The 16-bit format. -/
def half : Format := ⟨10, 5⟩

/-- The 32-bit format. -/
def single : Format := ⟨23, 8⟩

/-- The 64-bit format. -/
def double : Format := ⟨52, 11⟩

namespace Format

/-- The greatest exponent field: it marks infinities and what is not a number. -/
def top (f : Format) : Nat := 2 ^ f.exponent - 1

/-- The exponent of two that one unit of the smallest numbers stands for. -/
def least (f : Format) : Int := 2 - 2 ^ (f.exponent - 1) - f.fraction

/-- The exponent field of a pattern. -/
def exponentOf (f : Format) (bits : Nat) : Nat := bits / 2 ^ f.fraction % 2 ^ f.exponent

/-- The fraction field of a pattern. -/
def fractionOf (f : Format) (bits : Nat) : Nat := bits % 2 ^ f.fraction

/-- Whether the sign bit is set. -/
def isNegative (f : Format) (bits : Nat) : Bool := bits / 2 ^ (f.fraction + f.exponent) % 2 == 1

/-- Whether a pattern stands for a number. -/
def isFinite (f : Format) (bits : Nat) : Bool := f.exponentOf bits != f.top

/-- The magnitude of a finite pattern as `m * 2 ^ q`. -/
def parts (f : Format) (bits : Nat) : Nat × Int :=
  if f.exponentOf bits = 0 then (f.fractionOf bits, f.least)
  else (2 ^ f.fraction + f.fractionOf bits, f.least + (f.exponentOf bits - 1 : Nat))

/-- The pattern whose magnitude is nearest to `m * 2 ^ q`; of two equally near ones the even one,
and infinity where the magnitude is too great. -/
def round (f : Format) (negative : Bool) (m : Nat) (q : Int) : Nat :=
  let sign := if negative then 2 ^ (f.fraction + f.exponent) else 0
  if m = 0 then sign
  else
    -- the exponent of the last place that is kept
    let place : Int := max (m.log2 + q - f.fraction) f.least
    let units :=
      if place ≤ q then m * 2 ^ (q - place).toNat
      else
        let unit := 2 ^ (place - q).toNat
        let whole := m / unit
        let twice := 2 * (m % unit)
        if twice < unit then whole
        else if unit < twice then whole + 1
        else whole + whole % 2
    let field := (place - f.least).toNat * 2 ^ f.fraction + units
    sign + min field (f.top * 2 ^ f.fraction)

/-- The 64-bit pattern that stands for the same number. -/
def widen (f : Format) (bits : Nat) : Binary64 :=
  let negative := f.isNegative bits
  if f.isFinite bits then
    let (m, q) := f.parts bits
    ⟨.ofNat (double.round negative m q)⟩
  else
    let fraction := f.fractionOf bits * 2 ^ (double.fraction - f.fraction)
    let infinity := double.top * 2 ^ double.fraction
    ⟨.ofNat ((if negative then 2 ^ 63 else 0) + infinity + fraction)⟩

end Format

end Binary

namespace Binary64

open Binary

/-- Whether the pattern stands for a number, which infinities and NaN do not. -/
def isFinite (x : Binary64) : Bool := double.isFinite x.bits.toNat

/-- Whether the sign bit is set. -/
def isNegative (x : Binary64) : Bool := double.isNegative x.bits.toNat

/-- The nearest pattern to an integer. -/
def ofInt (n : Int) : Binary64 := ⟨.ofNat (double.round (n < 0) n.natAbs 0)⟩

/-- The pattern in a smaller format that stands for exactly this number, if there is one. -/
def narrow? (f : Format) (x : Binary64) : Option Nat :=
  let (m, q) := double.parts x.bits.toNat
  let small := f.round x.isNegative m q
  if f.widen small = x then some small else none

theorem widen_of_narrow? {f : Format} {x : Binary64} {n : Nat} (h : x.narrow? f = some n) :
    f.widen n = x := by
  unfold narrow? at h
  split at h
  simp only [Option.ite_none_right_eq_some, Option.some.injEq] at h
  exact h.2 ▸ h.1

end Binary64

/-- A number in the 64-bit format that is neither infinite nor NaN. -/
def FiniteFloat : Type := { x : Binary64 // x.isFinite = true }

namespace FiniteFloat

instance : DecidableEq FiniteFloat := inferInstanceAs (DecidableEq (Subtype _))

/-- The pattern, if it stands for a number. -/
def ofBinary64? (x : Binary64) : Option FiniteFloat :=
  if h : x.isFinite = true then some ⟨x, h⟩ else none

end FiniteFloat

end PeerRpc
