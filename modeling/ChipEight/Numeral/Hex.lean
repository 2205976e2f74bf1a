/-!
# Hexadecimal numerals

Integers in base sixteen, as they stand in fault messages and traces. A minus sign counts in the
width, so a padded negative number has one digit less.
-/

namespace ChipEight.Numeral

/-- The digits of `n` in base sixteen, letters in lower case. -/
def hexDigits (n : Nat) : List Char := Nat.toDigits 16 n

/-- The numeral of `n` in upper-case hexadecimal, zeros in front up to `width`
characters, the sign included. -/
def padHex (width : Nat) (n : Int) : String :=
  let sign := if n < 0 then ['-'] else []
  let digits := (hexDigits n.natAbs).map Char.toUpper
  String.ofList (sign ++ List.replicate (width - sign.length - digits.length) '0' ++ digits)

/-- The numeral of `n` in lower-case hexadecimal behind `0x`, a minus sign in front of all. -/
def hexLiteral (n : Int) : String :=
  let sign := if n < 0 then ['-'] else []
  String.ofList (sign ++ ['0', 'x'] ++ hexDigits n.natAbs)

example : padHex 3 0x200 = "200" ∧ padHex 4 0xE0 = "00E0" ∧ padHex 3 (-1) = "-01" := by
  decide +kernel

example : hexLiteral 0x1000 = "0x1000" ∧ hexLiteral (-1) = "-0x1" := by decide +kernel

end ChipEight.Numeral
