import ChipEight.Numeral.Hex
import ChipEight.Text.Printable

/-!
# Quoted text

A text stands in single quotes, or in double quotes if it has a single quote and no double one. What
cannot be shown as it is, the quote in use and the backslash are escaped.
-/

namespace ChipEight.Text

/-- The number `n` in at least `width` lower-case hexadecimal digits. -/
def hexField (width n : Nat) : List Char :=
  let digits := Numeral.hexDigits n
  List.replicate (width - digits.length) '0' ++ digits

/-- The number of a character behind a backslash, in two, four or eight digits as needed. -/
def escapeCode (n : Nat) : List Char :=
  if n < 0x100 then '\\' :: 'x' :: hexField 2 n
  else if n < 0x10000 then '\\' :: 'u' :: hexField 4 n
  else '\\' :: 'U' :: hexField 8 n

/-- A character as it stands between quotes of the given kind. -/
def quoteChar (quote c : Char) : List Char :=
  if c = quote ∨ c = '\\' then ['\\', c]
  else if c = '\t' then ['\\', 't']
  else if c = '\n' then ['\\', 'n']
  else if c = '\r' then ['\\', 'r']
  else if isPrintable c then [c]
  else escapeCode c.toNat

/-- The quote that goes around a text. -/
def quoteFor (cs : List Char) : Char :=
  if '\'' ∈ cs ∧ '"' ∉ cs then '"' else '\''

/-- A text in quotes. -/
def quoted (s : String) : String :=
  let cs := s.toList
  let quote := quoteFor cs
  String.ofList (quote :: (cs.flatMap (quoteChar quote) ++ [quote]))

end ChipEight.Text
