import ChipEight.Layout

/-!
# Decimal digits of a byte

A byte has at most three decimal digits; `ofByte` gives them, the most significant first.
-/

namespace ChipEight

/-- The hundreds, tens and ones of a number below one thousand. -/
structure DecimalDigits where
  hundreds : Nat
  tens : Nat
  ones : Nat
deriving DecidableEq, Repr

namespace DecimalDigits

/-- The decimal digits of a byte. -/
def ofByte (b : UInt8) : DecimalDigits :=
  ⟨b.toNat / 100, b.toNat / 10 % 10, b.toNat % 10⟩

/-- The decimal digits of an integer, if it is a byte. -/
def ofInt? (n : Int) : Option DecimalDigits :=
  if 0 ≤ n ∧ n ≤ 0xFF then some (ofByte (UInt8.ofNat n.toNat)) else none

/-- The three digits as bytes, in the order in which they are stored. -/
def toBytes (d : DecimalDigits) : Bytes :=
  [UInt8.ofNat d.hundreds, UInt8.ofNat d.tens, UInt8.ofNat d.ones]

@[simp] theorem length_toBytes (d : DecimalDigits) : d.toBytes.length = 3 := rfl

end DecimalDigits

end ChipEight
