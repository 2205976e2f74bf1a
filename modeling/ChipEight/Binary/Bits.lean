/-!
# Bits and nibbles of integers

Integers of either sign are read as two's complement numbers without a last digit, so a negative
number has infinitely many ones in front.
-/

namespace ChipEight.Bits

/-- Bit `n` of `a`, counted from the least significant one. -/
def testBit (a : Int) (n : Nat) : Bool :=
  match a with
  | .ofNat a => a.testBit n
  | .negSucc a => !a.testBit n

/-- The bits that are set in `a` but not in `b`. -/
def clear (a b : Nat) : Nat := a ^^^ (a &&& b)

/-- The union of the bits of two integers. -/
def union : Int → Int → Int
  | .ofNat a, .ofNat b => .ofNat (a ||| b)
  | .ofNat a, .negSucc b => .negSucc (clear b a)
  | .negSucc a, .ofNat b => .negSucc (clear a b)
  | .negSucc a, .negSucc b => .negSucc (a &&& b)

@[simp] theorem testBit_clear (a b n : Nat) :
    (clear a b).testBit n = (a.testBit n && !b.testBit n) := by
  simp only [clear, Nat.testBit_xor, Nat.testBit_and]
  cases a.testBit n <;> cases b.testBit n <;> rfl

/-- A bit of the union is set if it is set on either side. -/
@[simp] theorem testBit_union (a b : Int) (n : Nat) :
    testBit (union a b) n = (testBit a n || testBit b n) := by
  cases a <;> cases b <;> simp [union, testBit, Bool.or_comm, Bool.not_and]

/-- Bits 4 to 7. -/
def highNibble (byte : Int) : Int := byte / 16 % 16

/-- Bits 0 to 3. -/
def lowNibble (byte : Int) : Int := byte % 16

/-- The union of `low` and of `high` shifted by one nibble. -/
def join8 (high low : Int) : Int := union (high * 16) low

/-- The union of `low`, of `mid` shifted by one nibble and of `high` shifted by two. -/
def join12 (high mid low : Int) : Int := union (union (high * 256) (mid * 16)) low

end ChipEight.Bits
