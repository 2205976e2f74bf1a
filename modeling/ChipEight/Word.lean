import ChipEight.Binary.Bits
import ChipEight.Layout
import ChipEight.Numeral.Hex

/-!
# Instruction words

An instruction is a word of four nibbles. The first one is its family; the others are operands,
alone or joined.
-/

namespace ChipEight

/-- A hexadecimal digit. -/
abbrev Nibble := Fin 16

namespace Nibble

/-- The upper digit of a byte. -/
def high (b : UInt8) : Nibble := ⟨b.toNat / 16, by have := b.toNat_lt; omega⟩

/-- The lower digit of a byte. -/
def low (b : UInt8) : Nibble := ⟨b.toNat % 16, by omega⟩

/-- The last digit of a number. -/
def ofNat (k : Nat) : Nibble := ⟨k % 16, Nat.mod_lt k (by decide)⟩

@[simp] theorem val_high (b : UInt8) : ((high b : Nat) : Int) = Bits.highNibble b.toNat := by
  have := b.toNat_lt
  simp only [high, Bits.highNibble]; omega

@[simp] theorem val_low (b : UInt8) : ((low b : Nat) : Int) = Bits.lowNibble b.toNat := by
  simp only [low, Bits.lowNibble]; omega

end Nibble

/-- An instruction word: its family and the digits behind it. -/
structure Word where
  family : Nibble
  x : Nibble
  y : Nibble
  n : Nibble
deriving DecidableEq, Repr

namespace Word

/-- The word of two bytes in the order in which they are stored. -/
def ofBytes (high low : UInt8) : Word :=
  ⟨Nibble.high high, Nibble.low high, Nibble.high low, Nibble.low low⟩

/-- The word with the given value, of which the last four digits count. -/
def ofNat (value : Nat) : Word :=
  ofBytes (UInt8.ofNat (value / 256)) (UInt8.ofNat value)

/-- The value of the four digits. -/
def toNat (w : Word) : Nat := 4096 * w.family + 256 * w.x + 16 * w.y + w.n

/-- The last two digits. -/
def nn (w : Word) : UInt8 := UInt8.ofNat (16 * w.y + w.n)

/-- The last three digits. -/
def nnn (w : Word) : Nat := 256 * w.x + 16 * w.y + w.n

/-- The four digits as text. -/
def text (w : Word) : String := Numeral.padHex 4 w.toNat

theorem nnn_lt (w : Word) : w.nnn < 4096 := by
  simp only [nnn]; omega

@[simp] theorem toNat_nn (w : Word) : w.nn.toNat = 16 * w.y + w.n := by
  simp only [nn, UInt8.toNat_ofNat']; omega

/-- The value of a word is that of its two bytes. -/
theorem toNat_ofBytes (high low : UInt8) :
    (ofBytes high low).toNat = 256 * high.toNat + low.toNat := by
  simp only [toNat, ofBytes, Nibble.high, Nibble.low]; omega

end Word

end ChipEight
