import PeerRpc.Float.Binary

/-!
# PeerRpc.Float.Shortest -- the fewest digits that read back

A finite number `m * 2 ^ q` is written with the fewest decimal digits that still name it: the
decimal has to lie in the interval of reals that round to the number (ends included when `m` is
even). `Shortest.digits` tries one digit, two digits, ... and on each decimal grid tests only the
number's two neighbours; the first grid with a hit wins, and of two hits the nearer.

How the digits are laid out is a record, `Layout`: which exponents are written positionally and
how an exponent is marked. All arithmetic is on `Nat`.
-/

namespace PeerRpc

/-- A positive decimal number `digits * 10 ^ exponent`. -/
structure Decimal where
  digits : Nat
  exponent : Int
  deriving DecidableEq

namespace Shortest

open Binary

/-- The number and the ends of its rounding interval, in quarters of its last place, and whether
the ends belong to it. -/
structure Neighbourhood where
  low : Nat
  value : Nat
  high : Nat
  closed : Bool

/-- The rounding interval of the finite pattern `bits`. -/
def neighbourhood (f : Format) (bits : Nat) : Neighbourhood :=
  let m := (f.parts bits).1
  -- below the least significand of an exponent the patterns lie twice as close
  let below := if f.fractionOf bits = 0 && 1 < f.exponentOf bits then 1 else 2
  ⟨4 * m - below, 4 * m, 4 * m + 2, m % 2 == 0⟩

/-- The decimal on the grid of `10 ^ place` that lies in the interval, the one nearest to the value
if there are two. The interval counts in units of `2 ^ q`. -/
def onGrid (n : Neighbourhood) (q place : Int) : Option Decimal :=
  -- both sides over the common denominator: value * scale against grid steps of `step`
  let scale := 2 ^ q.toNat * 10 ^ (-place).toNat
  let step := 2 ^ (-q).toNat * 10 ^ place.toNat
  let inside (x : Nat) : Bool :=
    if n.closed then n.low * scale ≤ x * step && x * step ≤ n.high * scale
    else n.low * scale < x * step && x * step < n.high * scale
  let under := n.value * scale / step
  let rest := n.value * scale % step
  match inside under, inside (under + 1) with
  | true, true =>
    let up := step < 2 * rest || (2 * rest = step && under % 2 = 1)
    some ⟨if up then under + 1 else under, place⟩
  | true, false => some ⟨under, place⟩
  | false, true => some ⟨under + 1, place⟩
  | false, false => none

/-- The greatest `e` with `10 ^ e ≤ num / den`. -/
def magnitude (num den : Nat) : Int :=
  if den ≤ num then ((Nat.toDigits 10 (num / den)).length : Int) - 1
  else
    -- one place further down than the digits of the inverse, unless that is too far
    let k := (Nat.toDigits 10 (den / num)).length
    if den ≤ num * 10 ^ (k - 1) then -((k - 1 : Nat) : Int) else -(k : Int)

/-- A decimal without zeros at the end of its digits. -/
def trim : Nat → Decimal → Decimal
  | 0, d => d
  | fuel + 1, d =>
    if d.digits ≠ 0 ∧ d.digits % 10 = 0 then trim fuel ⟨d.digits / 10, d.exponent + 1⟩ else d

/-- The shortest decimal of a finite pattern other than zero: seventeen digits always suffice. -/
def digits (f : Format) (bits : Nat) : Decimal :=
  let n := neighbourhood f bits
  let q := (f.parts bits).2 - 2
  let e := magnitude (n.value * 2 ^ q.toNat) (2 ^ (-q).toNat)
  let grids := (List.range 17).map fun (p : Nat) => e - (p : Int)
  trim 20 ((grids.findSome? (onGrid n q)).getD ⟨n.value, 0⟩)

end Shortest

/-- How the digits of a number are laid out. A number whose leading digit stands for `10 ^ e` is
written positionally if `lowest ≤ e ≤ highest`, and otherwise with an exponent; a bound that is
absent does not restrict. -/
structure Layout where
  lowest : Option Int
  highest : Option Int
  nan : String
  infinity : String

namespace Layout

/-- Digits as text with a point after the first `whole` of them, filled with zeros. -/
def positional (digits : String) (whole : Int) : String :=
  let n : Int := digits.length
  if whole ≤ 0 then "0." ++ String.ofList (List.replicate (-whole).toNat '0') ++ digits
  else if n ≤ whole then
    digits ++ String.ofList (List.replicate (whole - n).toNat '0') ++ ".0"
  else (digits.take whole.toNat).toString ++ "." ++ (digits.drop whole.toNat).toString

/-- Digits as text with a point after the first one and an exponent. -/
def scientific (digits : String) (e : Int) : String :=
  let mantissa :=
    if digits.length ≤ 1 then digits
    else (digits.take 1).toString ++ "." ++ (digits.drop 1).toString
  mantissa ++ "e" ++ (if e < 0 then "-" else "+") ++ toString e.natAbs

/-- The text of a positive decimal. -/
def decimal (l : Layout) (d : Decimal) : String :=
  let digits := toString d.digits
  let e : Int := d.exponent + digits.length - 1
  if l.lowest.all (· ≤ e) && l.highest.all (e ≤ ·) then positional digits (e + 1)
  else scientific digits e

/-- The text of a pattern. -/
def pattern (l : Layout) (f : Binary.Format) (bits : Nat) : String :=
  let sign := if f.isNegative bits then "-" else ""
  if f.isFinite bits then
    if (f.parts bits).1 = 0 then sign ++ "0.0" else sign ++ l.decimal (Shortest.digits f bits)
  else if f.fractionOf bits = 0 then sign ++ l.infinity
  else l.nan

/-- The text of a number of the 64-bit format. -/
def text (l : Layout) (x : Binary64) : String := l.pattern Binary.double x.bits.toNat

/-- Every number in full, however long. -/
def full : Layout := ⟨none, none, "NaN", "inf"⟩

/-- Numbers between `1e-5` and `1e16` in full, others with an exponent. -/
def compact : Layout := ⟨some (-5), some 15, "NaN", "inf"⟩

/-- Numbers between `1e-6` and `1e13` in full, others with an exponent: the layout for numbers that
have few digits. -/
def compactSingle : Layout := ⟨some (-6), some 12, "NaN", "inf"⟩

end Layout

end PeerRpc
