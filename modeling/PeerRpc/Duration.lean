import PeerRpc.Power

/-!
# PeerRpc.Duration -- spans of time

A duration is a whole number of nanoseconds. Its text uses the largest of the units ns, µs, ms
and s that leaves a whole part, followed by the exact fraction without zeros at its end.
-/

namespace PeerRpc

/-- A span of time. -/
structure Duration where
  nanoseconds : Nat
  deriving DecidableEq, Inhabited

namespace Duration

/-- A whole number of milliseconds. -/
def ofMilliseconds (n : Nat) : Duration := ⟨n * 1000000⟩

/-- The whole milliseconds of a duration. -/
def milliseconds (d : Duration) : Nat := d.nanoseconds / 1000000

/-- The least number of whole milliseconds that is not shorter than a duration. -/
def ticks (d : Duration) : Nat := (d.nanoseconds + 999999) / 1000000

theorem ticks_ofMilliseconds (n : Nat) : (ofMilliseconds n).ticks = n := by
  simp only [ofMilliseconds, ticks]
  omega

/-- A number of units, each `10 ^ places` nanoseconds, as a decimal. -/
def decimal (places n : Nat) : String :=
  let digits := (Nat.toDigits 10 (n % 10 ^ places))
  let fraction := List.replicate (places - digits.length) '0' ++ digits
  let kept := (fraction.reverse.dropWhile (· = '0')).reverse
  toString (n / 10 ^ places) ++
    (if places = 0 ∨ kept.isEmpty then "" else "." ++ String.ofList kept)

/-- The text of a duration. -/
def text (d : Duration) : String :=
  let n := d.nanoseconds
  if n < 1000 then decimal 0 n ++ "ns"
  else if n < 1000000 then decimal 3 n ++ "µs"
  else if n < 1000000000 then decimal 6 n ++ "ms"
  else decimal 9 n ++ "s"

end Duration

end PeerRpc
