import ChipEight.Binary.Format

/-!
# Double-precision numbers

A `Binary64` is a rational number, an infinity or not a number. Each operation is the exact one
followed by one rounding to the nearest double, so `ofRat` is the only source of finite values. The
sign of zero is not kept: nothing here divides by a computed zero or prints one.
-/

namespace ChipEight

/-- A number of the double-precision format. -/
inductive Binary64 where
  | finite (value : Rat)
  | infinity
  | negInfinity
  | nan
deriving DecidableEq

namespace Binary64

/-- The double nearest to `x`, infinite where `x` is out of range. -/
def ofRat (x : Rat) : Binary64 :=
  match Format.binary64.round? x with
  | some y => .finite y
  | none => if x < 0 then .negInfinity else .infinity

/-- The double nearest to an integer, unless the integer is out of range. -/
def ofInt? (n : Int) : Option Binary64 :=
  (Format.binary64.round? n).map .finite

instance : OfNat Binary64 0 := ⟨.finite 0⟩

instance : Inhabited Binary64 := ⟨0⟩

/-- A finite value. -/
def toRat? : Binary64 → Option Rat
  | .finite x => some x
  | _ => none

/-- Below zero; not a number is not. -/
def isNegative : Binary64 → Bool
  | .finite x => x < 0
  | .negInfinity => true
  | _ => false

/-- The infinity on the side of zero on which `x` lies; none on zero itself. -/
def infinityAt (x : Rat) : Binary64 :=
  if x = 0 then .nan else if x < 0 then .negInfinity else .infinity

/-- The same number on the other side of zero. -/
protected def neg : Binary64 → Binary64
  | .finite x => .finite (-x)
  | .infinity => .negInfinity
  | .negInfinity => .infinity
  | .nan => .nan

instance : Neg Binary64 := ⟨Binary64.neg⟩

/-- The rounded sum; opposite infinities have none. -/
protected def add : Binary64 → Binary64 → Binary64
  | .finite x, .finite y => ofRat (x + y)
  | .nan, _ | _, .nan | .infinity, .negInfinity | .negInfinity, .infinity => .nan
  | .infinity, _ | _, .infinity => .infinity
  | .negInfinity, _ | _, .negInfinity => .negInfinity

instance : Add Binary64 := ⟨Binary64.add⟩

/-- The rounded product; zero times an infinity has none. -/
protected def mul : Binary64 → Binary64 → Binary64
  | .finite x, .finite y => ofRat (x * y)
  | .nan, _ | _, .nan => .nan
  | .finite x, .infinity | .infinity, .finite x => infinityAt x
  | .finite x, .negInfinity | .negInfinity, .finite x => -infinityAt x
  | .infinity, .infinity | .negInfinity, .negInfinity => .infinity
  | .infinity, .negInfinity | .negInfinity, .infinity => .negInfinity

instance : Mul Binary64 := ⟨Binary64.mul⟩

@[simp] theorem neg_finite (x : Rat) : -(finite x) = finite (-x) := rfl

@[simp] theorem finite_add_finite (x y : Rat) : finite x + finite y = ofRat (x + y) := (rfl)

@[simp] theorem finite_mul_finite (x y : Rat) : finite x * finite y = ofRat (x * y) := (rfl)

@[simp] theorem nan_add (y : Binary64) : nan + y = nan := by cases y <;> rfl

@[simp] theorem nan_mul (y : Binary64) : nan * y = nan := by cases y <;> rfl

@[simp] theorem isNegative_finite (x : Rat) : (finite x).isNegative = decide (x < 0) := rfl

end Binary64

end ChipEight
