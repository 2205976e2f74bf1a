/-!
# Blanks

The characters that may surround a numeral: the six blanks of ASCII and the white space of the
Unicode standard beyond ASCII.
-/

namespace ChipEight.Text

/-- Space, tab, line feed, vertical tab, form feed or carriage return. -/
def isAsciiBlank (c : Char) : Bool := c.toNat == 0x20 || (0x09 ≤ c.toNat && c.toNat ≤ 0x0D)

/-- White space beyond ASCII. -/
def isWideBlank (c : Char) : Bool :=
  let n := c.toNat
  n == 0x85 || n == 0xA0 || n == 0x1680 || (0x2000 ≤ n && n ≤ 0x200A) || n == 0x2028 ||
    n == 0x2029 || n == 0x202F || n == 0x205F || n == 0x3000

/-- A blank of either kind. -/
def isBlank (c : Char) : Bool := isAsciiBlank c || isWideBlank c

end ChipEight.Text
