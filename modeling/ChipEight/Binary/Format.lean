/-!
# Rounding to binary floating-point formats

A format is a precision together with a range of exponents. `Format.round` takes a rational to the
nearest number on the format's grid, of two nearest to the one with an even significand. Numbers of
a format are kept as the rationals that they are, so sums and products are exact until they are
rounded.
-/

namespace ChipEight

/-- The magnitude of a rational. -/
def magnitude (x : Rat) : Rat := if x < 0 then -x else x

/-- The integer nearest to `x`, of two nearest the even one. -/
def roundHalfEven (x : Rat) : Int :=
  let below := x.floor
  let rest := x - below
  if rest < 1 / 2 then below
  else if 1 / 2 < rest then below + 1
  else if below % 2 = 0 then below else below + 1

/-- The integer that is left of `x` when its fraction is cut off. -/
def wholePart (x : Rat) : Int := Int.tdiv x.num x.den

/-- The exponent `e` of the leading binary digit of `x`, so that `2 ^ e ≤ |x| < 2 ^ (e + 1)`
unless `x` is zero. -/
def leadingExponent (x : Rat) : Int :=
  let e : Int := (x.num.natAbs.log2 : Int) - (x.den.log2 : Int)
  if magnitude x < (2 : Rat) ^ e then e - 1 else e

/-- The numbers `m * 2 ^ e` with `|m| < 2 ^ precision` and `minExponent ≤ e` that are below
`2 ^ maxExponent` in magnitude. -/
structure Format where
  precision : Nat
  minExponent : Int
  maxExponent : Nat
deriving DecidableEq, Repr

namespace Format

/-- Double precision. -/
def binary64 : Format := ⟨53, -1074, 1024⟩

/-- Single precision. -/
def binary32 : Format := ⟨24, -149, 128⟩

/-- The exponent of the spacing of the grid around `x`. -/
def spacingExponent (F : Format) (x : Rat) : Int :=
  max (leadingExponent x - F.precision + 1) F.minExponent

/-- The point of the grid nearest to `x`, whatever its size. -/
def onGrid (F : Format) (x : Rat) : Rat :=
  let spacing := (2 : Rat) ^ F.spacingExponent x
  roundHalfEven (x / spacing) * spacing

/-- Magnitudes from here on are out of range. -/
def bound (F : Format) : Rat := (2 : Rat) ^ F.maxExponent

/-- The number of the format nearest to `x`; none if `x` rounds to a magnitude out of range. -/
def round? (F : Format) (x : Rat) : Option Rat :=
  let y := F.onGrid x
  if magnitude y < F.bound then some y else none

end Format

example : roundHalfEven (5 / 2) = 2 ∧ roundHalfEven (7 / 2) = 4 ∧ roundHalfEven (-5 / 2) = -2 := by
  decide +kernel

example : wholePart (7 / 2) = 3 ∧ wholePart (-7 / 2) = -3 := by decide +kernel

example : leadingExponent 1 = 0 ∧ leadingExponent (1 / 3) = -2 ∧ leadingExponent 7 = 2 := by
  decide +kernel

end ChipEight
