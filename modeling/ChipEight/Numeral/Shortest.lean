import ChipEight.Binary.Binary64

/-!
# The shortest decimal numeral of a double

A double is written with the fewest significant digits that read back as the same double, and of
those numerals with the one nearest to it. `shortest` finds the digits; `Binary64.text` lays them
out, with a decimal point for exponents from -4 to 15 and in scientific notation otherwise.
-/

namespace ChipEight.Numeral

/-- A decimal number: `digits * 10 ^ exponent`. -/
structure Decimal where
  digits : Nat
  exponent : Int
deriving DecidableEq, Repr

namespace Decimal

/-- The number that a decimal stands for. -/
def toRat (d : Decimal) : Rat := d.digits * (10 : Rat) ^ d.exponent

/-- The number of decimal digits of `n`. -/
def digitCount (n : Nat) : Nat := (Nat.toDigits 10 n).length

/-- The exponent `k` of the leading decimal digit of a positive `x`: `10 ^ k ≤ x < 10 ^ (k + 1)`. -/
def leadingExponent (x : Rat) : Int :=
  if 1 ≤ x then (digitCount x.floor.toNat : Int) - 1
  else -(digitCount (x.inv.ceil.toNat - 1) : Int)

/-- The candidate with the fewest digits among the two neighbours of `x` on the grid of spacing
`10 ^ exponent` that read back as `x`: the nearer one if both do, the even one if they are equally
near. -/
def onGrid? (F : Format) (x : Rat) (exponent : Int) : Option Decimal :=
  let scaled := x / (10 : Rat) ^ exponent
  let below : Decimal := ⟨scaled.floor.toNat, exponent⟩
  let above : Decimal := ⟨scaled.floor.toNat + 1, exponent⟩
  let readsBack (d : Decimal) : Bool := F.round? d.toRat = some x
  let nearer := if roundHalfEven scaled = scaled.floor then below else above
  match readsBack below, readsBack above with
  | true, true => some nearer
  | true, false => some below
  | false, true => some above
  | false, false => none

/-- The shortest decimal with `count` digits or more that reads back as the positive `x`, trying
`tries` lengths; after those the integer nearest on the last grid. -/
def shortestFrom (F : Format) (x : Rat) (count : Nat) : Nat → Decimal
  | 0 => ⟨(x / (10 : Rat) ^ (leadingExponent x - count + 1)).floor.toNat,
      leadingExponent x - count + 1⟩
  | tries + 1 =>
    match onGrid? F x (leadingExponent x - count + 1) with
    | some d => d
    | none => shortestFrom F x (count + 1) tries

/-- Seventeen significant digits tell all doubles apart. -/
def maxDigits : Nat := 17

/-- The shortest decimal that reads back as the positive double `x`. -/
def shortest (x : Rat) : Decimal := shortestFrom .binary64 x 1 maxDigits

/-- Zeros behind the last significant digit. -/
def trailingZeros (cs : List Char) : Nat := (cs.reverse.takeWhile (· == '0')).length

/-- The significant digits of a decimal, without zeros at the end, and the exponent of the first. -/
def significant (d : Decimal) : List Char × Int :=
  let cs := Nat.toDigits 10 d.digits
  (cs.take (cs.length - trailingZeros cs), d.exponent + cs.length - 1)

end Decimal

/-- Exponents from `low` on and below `high` are written with a decimal point in place. -/
structure PlainRange where
  low : Int
  high : Int

/-- Plain notation from `0.0001` to below `1e+16`. -/
def plainRange : PlainRange := ⟨-4, 16⟩

/-- The digits with the decimal point behind the digit of exponent zero, at least one decimal. -/
def positional (digits : List Char) (exponent : Int) : List Char :=
  if exponent < 0 then
    '0' :: '.' :: (List.replicate (exponent.natAbs - 1) '0' ++ digits)
  else
    let count := exponent.toNat + 1
    let whole := digits.take count ++ List.replicate (count - digits.length) '0'
    let decimals := digits.drop count
    whole ++ '.' :: (if decimals.isEmpty then ['0'] else decimals)

/-- The digits with the decimal point behind the first one and an exponent of two or more digits. -/
def scientific (digits : List Char) (exponent : Int) : List Char :=
  let decimals := digits.drop 1
  let power := Nat.toDigits 10 exponent.natAbs
  digits.take 1 ++ (if decimals.isEmpty then [] else '.' :: decimals) ++
    'e' :: (if exponent < 0 then '-' else '+') :: (List.replicate (2 - power.length) '0' ++ power)

/-- The numeral of a positive double. -/
def positiveText (x : Rat) : List Char :=
  let (digits, exponent) := (Decimal.shortest x).significant
  if plainRange.low ≤ exponent ∧ exponent < plainRange.high then positional digits exponent
  else scientific digits exponent

end Numeral

namespace Binary64

open Numeral in
/-- The shortest numeral of a double. -/
def text : Binary64 → String
  | .finite x =>
    if x = 0 then "0.0"
    else if x < 0 then String.ofList ('-' :: positiveText (-x))
    else String.ofList (positiveText x)
  | .infinity => "inf"
  | .negInfinity => "-inf"
  | .nan => "nan"

end Binary64

end ChipEight
