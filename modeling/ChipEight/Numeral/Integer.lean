import ChipEight.Text.Blank
import ChipEight.Text.DecimalDigit

/-!
# Reading integers

A decimal integer may stand between blanks, have a sign, use the digits of any script and group them
by single underscores. More than 4300 digits are not accepted.
-/

namespace ChipEight.Numeral

/-- Digits may be as many as this. -/
def maxIntegerDigits : Nat := 4300

/-- The values of digits that follow each other directly or with one underscore in between. -/
def digitValues? : List Char → Option (List Nat)
  | [] => some []
  | ['_'] => none
  | '_' :: c :: rest => do
    let d ← Text.digitValue? c
    let ds ← digitValues? rest
    pure (d :: ds)
  | c :: rest => do
    let d ← Text.digitValue? c
    let ds ← digitValues? rest
    pure (d :: ds)

/-- The number with the given digits, the most significant first. -/
def ofDigits (ds : List Nat) : Nat := ds.foldl (fun n d ↦ 10 * n + d) 0

/-- Reads a number without a sign: a digit and then groups of digits. -/
def natural? (cs : List Char) : Option Nat :=
  match cs with
  | [] | '_' :: _ => none
  | cs => do
    let ds ← digitValues? cs
    if ds.length ≤ maxIntegerDigits then some (ofDigits ds) else none

/-- Reads a number with or without a sign. -/
def signed? : List Char → Option Int
  | '-' :: cs => (natural? cs).map fun n ↦ -(n : Int)
  | '+' :: cs => (natural? cs).map Int.ofNat
  | cs => (natural? cs).map Int.ofNat

/-- A text without the blanks at its ends. -/
def trimBlanks (cs : List Char) : List Char :=
  ((cs.dropWhile Text.isBlank).reverse.dropWhile Text.isBlank).reverse

/-- Reads an integer. -/
def integer? (s : String) : Option Int := signed? (trimBlanks s.toList)

end ChipEight.Numeral
