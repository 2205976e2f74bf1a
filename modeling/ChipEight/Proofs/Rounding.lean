import ChipEight.Binary.Binary64
import Mathlib.Algebra.Order.Field.Power
import Mathlib.Data.Nat.Log
import Mathlib.Data.Rat.Floor
import Mathlib.Tactic.Linarith
import Mathlib.Tactic.Positivity
import Mathlib.Tactic.Ring

/-!
# Numbers of a format

Rounding to a format gives one of its numbers and leaves those as they are.  It does not go beyond
any of them, nor further than half of the spacing, so that it keeps the whole part of what is not as
close as that to the next integer.  When the whole part of a number of the format is taken off, what
is left is one again, so that this never rounds: above the last binary digit of the number nothing
is left, and else the rest has the same spacing and fewer digits.
-/

namespace ChipEight

/-! ## Integers next to a rational -/

theorem magnitude_eq_abs (x : Rat) : magnitude x = |x| := by
  rw [magnitude]
  split
  · next h => rw [abs_of_neg h]
  · next h => rw [abs_of_nonneg (not_lt.1 h)]

/-- The whole part of a number that is not negative is its floor. -/
theorem wholePart_of_nonneg {x : Rat} (h : 0 ≤ x) : wholePart x = ⌊x⌋ := by
  rw [wholePart, Int.tdiv_eq_ediv_of_nonneg (Rat.num_nonneg.2 h), Rat.floor_def']

/-- The nearest integer is one of the two around a number. -/
theorem roundHalfEven_cases (x : Rat) :
    roundHalfEven x = ⌊x⌋ ∨ (roundHalfEven x = ⌊x⌋ + 1 ∧ (⌊x⌋ : Rat) < x) := by
  have hfloor : x.floor = ⌊x⌋ := rfl
  rw [roundHalfEven, hfloor]
  split
  · exact .inl rfl
  · next hrest =>
    have hlt : (⌊x⌋ : Rat) < x := by linarith
    split
    · exact .inr ⟨rfl, hlt⟩
    · split
      · exact .inl rfl
      · exact .inr ⟨rfl, hlt⟩

@[simp]
theorem roundHalfEven_intCast (n : Int) : roundHalfEven n = n := by
  obtain h | ⟨-, hlt⟩ := roundHalfEven_cases n
  · rw [h, Int.floor_intCast]
  · rw [Int.floor_intCast] at hlt
    exact absurd hlt (lt_irrefl _)

/-- Rounding does not go beyond an integer. -/
theorem roundHalfEven_le {x : Rat} {n : Int} (h : x ≤ n) : roundHalfEven x ≤ n := by
  obtain hr | ⟨hr, hlt⟩ := roundHalfEven_cases x
  · rw [hr]
    exact Int.floor_le_iff.2 (h.trans_lt (lt_add_one _))
  · rw [hr]
    have : (⌊x⌋ : Rat) < n := hlt.trans_le h
    exact Int.add_one_le_iff.2 (Int.cast_lt.1 this)

theorem le_roundHalfEven {x : Rat} {n : Int} (h : n ≤ x) : n ≤ roundHalfEven x := by
  have hfloor : n ≤ ⌊x⌋ := Int.le_floor.2 h
  obtain hr | ⟨hr, -⟩ := roundHalfEven_cases x
  · rwa [hr]
  · rw [hr]
    exact hfloor.trans (Int.le_add_one le_rfl)

/-- Rounding gives the lower one of two integers for what is less than half way above it. -/
theorem roundHalfEven_le_of_lt {x : Rat} {n : Int} (h : x < n + 1 / 2) : roundHalfEven x ≤ n := by
  have hfloor : x.floor = ⌊x⌋ := rfl
  have hle : ⌊x⌋ ≤ n := by
    have : (⌊x⌋ : Rat) < n + 1 := (Int.floor_le x).trans_lt (h.trans (by linarith))
    exact Int.lt_add_one_iff.1 (mod_cast this)
  obtain hlt | rfl := hle.lt_or_eq
  · obtain hr | ⟨hr, -⟩ := roundHalfEven_cases x
    · exact hr.trans_le hle
    · exact hr.trans_le hlt
  · rw [roundHalfEven, hfloor, if_pos (by linarith)]

/-- Rounding moves a number by half a unit at most. -/
theorem abs_roundHalfEven_sub_le (x : Rat) : |(roundHalfEven x : Rat) - x| ≤ 1 / 2 := by
  have hfloor : x.floor = ⌊x⌋ := rfl
  have hlow := Int.floor_le x
  have hhigh := Int.lt_floor_add_one x
  rw [roundHalfEven, hfloor, abs_le]
  split
  · constructor <;> linarith
  · split
    · push_cast
      constructor <;> linarith
    · split
      · constructor <;> linarith
      · push_cast
        constructor <;> linarith

/-- A number lies between the power of two of its leading digit and the next one. -/
theorem leadingExponent_spec {x : Rat} (hx : x ≠ 0) :
    (2 : Rat) ^ leadingExponent x ≤ |x| ∧ |x| < (2 : Rat) ^ (leadingExponent x + 1) := by
  have hden : (0 : Rat) < x.den := Nat.cast_pos.2 x.den_pos
  have hratio : |x| * x.den = x.num.natAbs := by
    rw [← abs_of_pos hden, ← abs_mul, Rat.mul_den_eq_num, Nat.cast_natAbs, Int.cast_abs]
  have hnum : x.num.natAbs ≠ 0 := by simpa using hx
  have htop : (2 : Rat) ^ x.num.natAbs.log2 ≤ x.num.natAbs :=
    mod_cast Nat.log2_self_le hnum
  have htop' : (x.num.natAbs : Rat) < (2 : Rat) ^ (x.num.natAbs.log2 + 1) :=
    mod_cast Nat.lt_log2_self
  have hbottom : (2 : Rat) ^ x.den.log2 ≤ x.den := mod_cast Nat.log2_self_le x.den_nz
  have hbottom' : (x.den : Rat) < (2 : Rat) ^ (x.den.log2 + 1) := mod_cast Nat.lt_log2_self
  rw [leadingExponent, magnitude_eq_abs]
  generalize x.num.natAbs.log2 = a, x.den.log2 = b at *
  have hlow : (2 : Rat) ^ ((a : Int) - b - 1) ≤ |x| := by
    have hpow : (2 : Rat) ^ ((a : Int) - b - 1) = 2 ^ a / 2 ^ (b + 1) := by
      rw [sub_sub, zpow_sub₀ two_ne_zero, zpow_natCast]
      norm_cast
    rw [hpow, div_le_iff₀ (by positivity)]
    calc (2 : Rat) ^ a ≤ |x| * x.den := htop.trans_eq hratio.symm
      _ ≤ |x| * 2 ^ (b + 1) := mul_le_mul_of_nonneg_left hbottom'.le (abs_nonneg x)
  have hhigh : |x| < (2 : Rat) ^ ((a : Int) - b + 1) := by
    have hpow : (2 : Rat) ^ ((a : Int) - b + 1) = 2 ^ (a + 1) / 2 ^ b := by
      rw [sub_add_eq_add_sub, zpow_sub₀ two_ne_zero, zpow_natCast]
      norm_cast
    rw [hpow, lt_div_iff₀ (by positivity)]
    calc |x| * 2 ^ b ≤ |x| * x.den := mul_le_mul_of_nonneg_left hbottom (abs_nonneg x)
      _ < 2 ^ (a + 1) := hratio.trans_lt htop'
  split
  · next hbelow => exact ⟨hlow, by rwa [sub_add_cancel]⟩
  · next habove => exact ⟨not_lt.1 habove, hhigh⟩

namespace Format

variable {F : Format} {x : Rat}

/-- A number whose digits are those of the format, without regard to its size. -/
def HasDigits (F : Format) (x : Rat) : Prop :=
  ∃ m e : Int, x = m * (2 : Rat) ^ e ∧ |m| < 2 ^ F.precision ∧ F.minExponent ≤ e

theorem onGrid_def (F : Format) (x : Rat) :
    F.onGrid x =
      roundHalfEven (x / (2 : Rat) ^ F.spacingExponent x) * (2 : Rat) ^ F.spacingExponent x := rfl

theorem hasDigits_zero (F : Format) : F.HasDigits 0 := ⟨0, F.minExponent, by simp, by simp, le_rfl⟩

theorem hasDigits_intCast {n : Int} (h : |n| < 2 ^ F.precision) (hmin : F.minExponent ≤ 0) :
    F.HasDigits n := ⟨n, 0, by rw [zpow_zero, mul_one], h, hmin⟩

theorem hasDigits_one (hp : 0 < F.precision) (hmin : F.minExponent ≤ 0) : F.HasDigits 1 := by
  have hdigits : F.HasDigits (1 : Int) :=
    hasDigits_intCast (one_lt_pow₀ one_lt_two hp.ne') hmin
  rwa [Int.cast_one] at hdigits

/-- A number is below the power of two that has one digit more than it. -/
theorem abs_lt_of_digits {m e : Int} {p : Nat} (hm : |m| < 2 ^ p) :
    |(m : Rat) * (2 : Rat) ^ e| < (2 : Rat) ^ ((p : Int) + e) := by
  have hpow : (0 : Rat) < 2 ^ e := by positivity
  rw [abs_mul, abs_of_pos hpow, zpow_add₀ two_ne_zero, zpow_natCast]
  exact mul_lt_mul_of_pos_right (mod_cast hm) hpow

/-- A number is a multiple of the spacing of a grid that is at least as fine as its last digit. -/
theorem digits_div_spacing {m s e : Int} (h : s ≤ e) :
    (m : Rat) * (2 : Rat) ^ e / (2 : Rat) ^ s = (m * 2 ^ (e - s).toNat : Int) := by
  rw [mul_div_assoc, ← zpow_sub₀ two_ne_zero]
  obtain ⟨k, hk⟩ : ∃ k : Nat, e - s = k := ⟨_, (Int.toNat_of_nonneg (by omega)).symm⟩
  rw [hk, Int.toNat_natCast, zpow_natCast]
  push_cast
  rfl

/-- The grid around a number that is no larger than one of the format is at least as fine as the
last digit of that one. -/
theorem spacingExponent_le {m e : Int} (hx : x ≠ 0) (h : |x| ≤ |(m : Rat) * (2 : Rat) ^ e|)
    (hm : |m| < 2 ^ F.precision) (he : F.minExponent ≤ e) : F.spacingExponent x ≤ e := by
  have hexp := ((leadingExponent_spec hx).1.trans h).trans_lt (abs_lt_of_digits hm)
  rw [zpow_lt_zpow_iff_right₀ one_lt_two] at hexp
  rw [spacingExponent]
  omega

/-- Points of the grid stay where they are. -/
theorem HasDigits.onGrid_eq (h : F.HasDigits x) : F.onGrid x = x := by
  obtain ⟨m, e, rfl, hm, he⟩ := h
  by_cases hm₀ : m = 0
  · simp [hm₀, onGrid_def, show roundHalfEven 0 = 0 from roundHalfEven_intCast 0]
  · have hx : (m : Rat) * (2 : Rat) ^ e ≠ 0 := by positivity
    have hint := digits_div_spacing (m := m) (spacingExponent_le hx le_rfl hm he)
    rw [onGrid_def, hint, roundHalfEven_intCast, ← hint, div_mul_cancel₀ _ (by positivity)]

/-- Rounding does not go beyond a number of the format. -/
theorem onGrid_le {y : Rat} (hy : F.HasDigits y) (h₀ : 0 ≤ x) (h : x ≤ y) : F.onGrid x ≤ y := by
  obtain rfl | hx := h₀.eq_or_lt
  · rwa [F.hasDigits_zero.onGrid_eq]
  · obtain ⟨m, e, rfl, hm, he⟩ := hy
    have habs : |x| ≤ |(m : Rat) * (2 : Rat) ^ e| := by
      rw [abs_of_pos hx]
      exact h.trans (le_abs_self _)
    have hint := digits_div_spacing (m := m) (spacingExponent_le hx.ne' habs hm he)
    rw [onGrid_def]
    generalize F.spacingExponent x = s at *
    have hpow : (0 : Rat) < 2 ^ s := by positivity
    rw [← le_div_iff₀ hpow, hint, Int.cast_le]
    refine roundHalfEven_le ?_
    rw [← hint]
    exact div_le_div_of_nonneg_right h hpow.le

/-- Rounding does not go below a point of the grid. -/
theorem mul_zpow_le_onGrid {m e : Int} (he : F.spacingExponent x ≤ e)
    (h : (m : Rat) * (2 : Rat) ^ e ≤ x) : (m : Rat) * (2 : Rat) ^ e ≤ F.onGrid x := by
  have hint := digits_div_spacing (m := m) he
  rw [onGrid_def]
  generalize F.spacingExponent x = s at *
  have hpow : (0 : Rat) < 2 ^ s := by positivity
  rw [← div_le_iff₀ hpow, hint, Int.cast_le]
  refine le_roundHalfEven ?_
  rw [← hint]
  exact div_le_div_of_nonneg_right h hpow.le

/-- Rounding does not go below a number of the format. -/
theorem le_onGrid {y : Rat} (hp : 0 < F.precision) (hy : F.HasDigits y) (h₀ : 0 ≤ y)
    (h : y ≤ x) : y ≤ F.onGrid x := by
  obtain rfl | hx := (h₀.trans h).eq_or_lt
  · rwa [F.hasDigits_zero.onGrid_eq]
  · obtain ⟨m, e, rfl, hm, he⟩ := hy
    obtain hs | hs := le_or_gt (F.spacingExponent x) e
    · exact mul_zpow_le_onGrid hs h
    · -- The grid is too coarse for the number, but then the number is below the power of two of the
      -- leading digit of `x`, which is a point of the grid.
      have hspacing : F.spacingExponent x = leadingExponent x - F.precision + 1 := by
        rw [spacingExponent] at hs ⊢
        omega
      have hlead := (leadingExponent_spec hx.ne').1
      rw [abs_of_pos hx, ← one_mul (2 ^ leadingExponent x), ← Int.cast_one] at hlead
      calc (m : Rat) * 2 ^ e ≤ |(m : Rat) * 2 ^ e| := le_abs_self _
        _ ≤ 2 ^ (F.precision + e) := (abs_lt_of_digits hm).le
        _ ≤ 2 ^ leadingExponent x := zpow_le_zpow_right₀ one_le_two (by omega)
        _ = (1 : Int) * 2 ^ leadingExponent x := by rw [Int.cast_one, one_mul]
        _ ≤ F.onGrid x := mul_zpow_le_onGrid (by omega) hlead

theorem abs_intCast_lt_bound {n : Int} (h : |n| < 2 ^ F.precision)
    (hmax : F.precision ≤ F.maxExponent) : |(n : Rat)| < F.bound :=
  calc |(n : Rat)| < 2 ^ F.precision := mod_cast h
    _ ≤ F.bound := pow_le_pow_right₀ one_le_two hmax

/-- The largest number of the format. -/
def largest (F : Format) : Rat :=
  (2 ^ F.precision - 1 : Int) * (2 : Rat) ^ (F.maxExponent - F.precision : Int)

theorem two_pow_sub_one_nonneg (n : Nat) : (0 : Int) ≤ 2 ^ n - 1 := by
  have : (1 : Int) ≤ 2 ^ n := one_le_pow₀ (by decide)
  omega

theorem hasDigits_largest (hF : F.minExponent + F.precision ≤ F.maxExponent) :
    F.HasDigits F.largest := by
  refine ⟨_, _, rfl, ?_, by omega⟩
  rw [abs_of_nonneg (two_pow_sub_one_nonneg _)]
  omega

/-- The largest number is one spacing below the bound. -/
theorem bound_eq_largest_add (F : Format) :
    F.bound = F.largest + (2 : Rat) ^ (F.maxExponent - F.precision : Int) := by
  have hexp : (2 : Rat) ^ F.maxExponent =
      2 ^ F.precision * (2 : Rat) ^ (F.maxExponent - F.precision : Int) := by
    rw [← zpow_natCast, ← zpow_natCast, ← zpow_add₀ two_ne_zero, add_sub_cancel]
  rw [bound, largest, hexp]
  push_cast
  ring

/-- No number of the format lies between the largest one and the bound. -/
theorem HasDigits.le_largest (h : F.HasDigits x) (hx : x < F.bound) : x ≤ F.largest := by
  obtain ⟨m, e, rfl, hm, -⟩ := h
  have hm' : m ≤ 2 ^ F.precision - 1 := by
    have := le_abs_self m
    omega
  rw [bound_eq_largest_add] at hx
  rw [largest] at hx ⊢
  generalize (F.maxExponent - F.precision : Int) = s at *
  have hpow : (0 : Rat) < 2 ^ s := by positivity
  obtain hse | hes := le_total s e
  · -- Both are multiples of the spacing below the bound.
    have hint := digits_div_spacing (m := m) hse
    rw [← div_le_iff₀ hpow, hint, Int.cast_le]
    have hlt : (m : Rat) * 2 ^ e / 2 ^ s < (2 ^ F.precision : Int) := by
      rw [div_lt_iff₀ hpow]
      refine hx.trans_eq ?_
      push_cast
      ring
    rw [hint, Int.cast_lt] at hlt
    omega
  · calc (m : Rat) * 2 ^ e ≤ (2 ^ F.precision - 1 : Int) * 2 ^ e :=
          mul_le_mul_of_nonneg_right (Int.cast_le.2 hm') (by positivity)
      _ ≤ (2 ^ F.precision - 1 : Int) * 2 ^ s :=
          mul_le_mul_of_nonneg_left (zpow_le_zpow_right₀ one_le_two hes)
            (Int.cast_nonneg (two_pow_sub_one_nonneg _))

/-- What is less than half a spacing above the largest number is not rounded beyond it. -/
theorem onGrid_le_largest (hp : 0 < F.precision)
    (hF : F.minExponent + F.precision ≤ F.maxExponent) (h₀ : 0 ≤ x)
    (h : x < F.largest + (2 : Rat) ^ (F.maxExponent - F.precision : Int) / 2) :
    F.onGrid x ≤ F.largest := by
  obtain hle | hgt := le_or_gt x F.largest
  · exact onGrid_le (hasDigits_largest hF) h₀ hle
  · have hbound : x < F.bound := by
      have : (0 : Rat) < (2 : Rat) ^ (F.maxExponent - F.precision : Int) := by positivity
      rw [bound_eq_largest_add]
      linarith
    -- Here the grid has the same spacing as around the largest number.
    have hspacing : F.spacingExponent x = F.maxExponent - F.precision := by
      have hx : x ≠ 0 := by
        rintro rfl
        have hlargest : 0 ≤ F.largest :=
          mul_nonneg (Int.cast_nonneg (two_pow_sub_one_nonneg _)) (by positivity)
        exact absurd hgt (not_lt.2 hlargest)
      obtain ⟨hlow, hhigh⟩ := leadingExponent_spec hx
      rw [abs_of_nonneg h₀] at hlow hhigh
      have hlead : leadingExponent x < F.maxExponent := by
        rw [← zpow_lt_zpow_iff_right₀ (one_lt_two : (1 : Rat) < 2), zpow_natCast]
        exact hlow.trans_lt hbound
      have hlead' : (F.maxExponent - 1 : Int) < leadingExponent x + 1 := by
        rw [← zpow_lt_zpow_iff_right₀ (one_lt_two : (1 : Rat) < 2)]
        refine (le_trans ?_ hgt.le).trans_lt hhigh
        have hexp : (F.maxExponent - 1 : Int) =
            (F.precision - 1 : Nat) + (F.maxExponent - F.precision : Int) := by omega
        have hdigits : (2 ^ (F.precision - 1) : Int) ≤ 2 ^ F.precision - 1 := by
          have hdouble : (2 : Int) ^ F.precision = 2 * 2 ^ (F.precision - 1) := by
            rw [← pow_succ', Nat.sub_add_cancel hp]
          have : (1 : Int) ≤ 2 ^ (F.precision - 1) := one_le_pow₀ (by decide)
          omega
        rw [hexp, zpow_add₀ two_ne_zero, zpow_natCast, largest]
        refine mul_le_mul_of_nonneg_right ?_ (by positivity)
        exact_mod_cast hdigits
      rw [spacingExponent]
      omega
    rw [onGrid_def, hspacing]
    rw [largest] at h ⊢
    generalize (F.maxExponent - F.precision : Int) = s at *
    have hpow : (0 : Rat) < 2 ^ s := by positivity
    refine mul_le_mul_of_nonneg_right (Int.cast_le.2 (roundHalfEven_le_of_lt ?_)) hpow.le
    rw [div_lt_iff₀ hpow]
    linarith

/-- A rounded number has no more digits than the format. -/
theorem hasDigits_onGrid (hp : 0 < F.precision) (x : Rat) : F.HasDigits (F.onGrid x) := by
  rw [onGrid_def]
  have hmin : F.minExponent ≤ F.spacingExponent x := le_max_right _ _
  have hlead : leadingExponent x + 1 ≤ F.precision + F.spacingExponent x := by
    rw [spacingExponent]
    omega
  generalize F.spacingExponent x = s at *
  have hpow : (0 : Rat) < 2 ^ s := by positivity
  have hx : |x / 2 ^ s| ≤ (2 ^ F.precision : Int) := by
    obtain rfl | hx := eq_or_ne x 0
    · simp
    rw [abs_div, abs_of_pos hpow, div_le_iff₀ hpow]
    calc |x| ≤ 2 ^ (leadingExponent x + 1) := (leadingExponent_spec hx).2.le
      _ ≤ 2 ^ (F.precision + s) := zpow_le_zpow_right₀ one_le_two hlead
      _ = (2 ^ F.precision : Int) * 2 ^ s := by
        rw [zpow_add₀ two_ne_zero, zpow_natCast]
        push_cast
        rfl
  have hr : |roundHalfEven (x / 2 ^ s)| ≤ 2 ^ F.precision := by
    rw [abs_le] at hx ⊢
    exact ⟨le_roundHalfEven (by push_cast; exact mod_cast hx.1), roundHalfEven_le hx.2⟩
  obtain hlt | heq := hr.lt_or_eq
  · exact ⟨_, s, rfl, hlt, hmin⟩
  · -- All digits are carried: the number is a power of two, which one digit suffices for.
    obtain ⟨p, hp⟩ : ∃ p, F.precision = p + 1 := ⟨_, (Nat.succ_pred_eq_of_pos hp).symm⟩
    have hdigit : |(2 : Int) ^ p| < 2 ^ F.precision := by
      rw [abs_of_pos (by positivity), hp]
      exact pow_lt_pow_right₀ one_lt_two p.lt_succ_self
    have hcarry : ((2 ^ F.precision : Int) : Rat) * 2 ^ s = (2 ^ p : Int) * 2 ^ (s + 1) := by
      rw [hp, zpow_add_one₀ two_ne_zero]
      push_cast
      ring
    obtain hr | hr := eq_or_eq_neg_of_abs_eq heq
    · exact ⟨2 ^ p, s + 1, by rw [hr, hcarry], hdigit, by omega⟩
    · refine ⟨-2 ^ p, s + 1, ?_, by rwa [abs_neg], by omega⟩
      rw [hr, Int.cast_neg, neg_mul, hcarry, Int.cast_neg, neg_mul]

theorem onGrid_nonneg (h : 0 ≤ x) : 0 ≤ F.onGrid x := by
  rw [onGrid_def]
  have hpow : (0 : Rat) < 2 ^ F.spacingExponent x := by positivity
  have hr : 0 ≤ roundHalfEven (x / 2 ^ F.spacingExponent x) :=
    le_roundHalfEven (by rw [Int.cast_zero]; positivity)
  exact mul_nonneg (Int.cast_nonneg hr) hpow.le

/-- What is no smaller than the smallest number of the format is no smaller than the spacing of the
grid around it. -/
theorem spacing_le (hp : 0 < F.precision) (h : (2 : Rat) ^ F.minExponent ≤ |x|) :
    (2 : Rat) ^ F.spacingExponent x ≤ |x| := by
  have hx : x ≠ 0 := by
    rintro rfl
    rw [abs_zero] at h
    exact absurd h (not_le.2 (by positivity))
  obtain hmin | hlead := max_choice (leadingExponent x - F.precision + 1) F.minExponent
  · rw [spacingExponent, hmin]
    exact (zpow_le_zpow_right₀ one_le_two (by omega)).trans (leadingExponent_spec hx).1
  · rwa [spacingExponent, hlead]

/-- Such a number is not rounded to zero. -/
theorem onGrid_neg (hp : 0 < F.precision) (hx : x < 0) (h : (2 : Rat) ^ F.minExponent ≤ |x|) :
    F.onGrid x < 0 := by
  have hspacing := spacing_le hp h
  rw [onGrid_def]
  have hpow : (0 : Rat) < 2 ^ F.spacingExponent x := by positivity
  have hr : roundHalfEven (x / 2 ^ F.spacingExponent x) ≤ -1 := by
    refine roundHalfEven_le ?_
    rw [abs_of_neg hx] at hspacing
    rw [div_le_iff₀ hpow]
    push_cast
    linarith
  exact mul_neg_of_neg_of_pos (Int.cast_lt_zero.2 (by omega)) hpow

/-- What is not below one is not rounded below one. -/
theorem one_le_onGrid (hp : 0 < F.precision) (hmin : F.minExponent ≤ 0) (h : 1 ≤ x) :
    1 ≤ F.onGrid x := le_onGrid hp (hasDigits_one hp hmin) zero_le_one h

/-- Rounding moves a number by half of the spacing around it at most. -/
theorem abs_onGrid_sub_le (F : Format) (x : Rat) :
    |F.onGrid x - x| ≤ (2 : Rat) ^ F.spacingExponent x / 2 := by
  rw [onGrid_def]
  generalize F.spacingExponent x = s
  have hpow : (0 : Rat) < 2 ^ s := by positivity
  have herror := mul_le_mul_of_nonneg_right (abs_roundHalfEven_sub_le (x / 2 ^ s)) hpow.le
  calc |(roundHalfEven (x / 2 ^ s) : Rat) * 2 ^ s - x|
      = |(roundHalfEven (x / 2 ^ s) : Rat) - x / 2 ^ s| * 2 ^ s := by
        rw [← abs_of_pos hpow, ← abs_mul, abs_of_pos hpow, sub_mul, div_mul_cancel₀ _ hpow.ne']
    _ ≤ 1 / 2 * 2 ^ s := herror
    _ = 2 ^ s / 2 := one_div_mul_eq_div _ _

/-- Rounding keeps the whole part of a number that is further away from the next integer than half
of the spacing, if the whole part fits the format. -/
theorem floor_onGrid (hp : 0 < F.precision) (hmin : F.minExponent ≤ 0) (h₀ : 0 ≤ x)
    (hx : x < 2 ^ F.precision) (h : x + (2 : Rat) ^ F.spacingExponent x / 2 < ⌊x⌋ + 1) :
    ⌊F.onGrid x⌋ = ⌊x⌋ := by
  have hfloor₀ : 0 ≤ ⌊x⌋ := Int.floor_nonneg.2 h₀
  have hfloor : |⌊x⌋| < 2 ^ F.precision := by
    rw [abs_of_nonneg hfloor₀, Int.floor_lt]
    exact_mod_cast hx
  refine Int.floor_eq_iff.2 ⟨?_, ?_⟩
  · exact le_onGrid hp (hasDigits_intCast hfloor hmin) (mod_cast hfloor₀) (Int.floor_le x)
  · calc F.onGrid x ≤ x + (2 : Rat) ^ F.spacingExponent x / 2 :=
          sub_le_iff_le_add'.1 ((le_abs_self _).trans (F.abs_onGrid_sub_le x))
      _ < ⌊x⌋ + 1 := h

/-- What is left of a number when its whole part is taken off has no more digits. -/
theorem HasDigits.fract (h : F.HasDigits x) (hx : 0 ≤ x) : F.HasDigits (x - ⌊x⌋) := by
  obtain ⟨m, e, rfl, hm, he⟩ := h
  obtain ⟨k, rfl | rfl⟩ := e.eq_nat_or_neg
  · -- No digit lies behind the point.
    have hint : (m : Rat) * 2 ^ (k : Int) = (m * 2 ^ k : Int) := by
      rw [zpow_natCast]
      push_cast
      rfl
    rw [hint, Int.floor_intCast, sub_self]
    exact F.hasDigits_zero
  · -- The digits behind the point are the last ones of all digits.
    have hdiv : (m : Rat) * 2 ^ (-(k : Int)) = m / (2 ^ k : Nat) := by
      rw [zpow_neg, zpow_natCast, div_eq_mul_inv]
      push_cast
      rfl
    have hm₀ : 0 ≤ m := by
      have hpow : (0 : Rat) < 2 ^ (-(k : Int)) := by positivity
      exact_mod_cast (mul_nonneg_iff_of_pos_right hpow).1 hx
    have hmod := Int.emod_add_mul_ediv m (2 ^ k)
    refine ⟨m % 2 ^ k, -k, ?_, ?_, he⟩
    · have hfloor : ⌊(m : Rat) * 2 ^ (-(k : Int))⌋ = m / 2 ^ k := by
        rw [hdiv, Rat.floor_intCast_div_natCast]
        push_cast
        rfl
      have hrest : ((m % 2 ^ k : Int) : Rat) = m - 2 ^ k * (m / 2 ^ k : Int) :=
        eq_sub_of_add_eq (mod_cast hmod)
      rw [hfloor, hrest, zpow_neg, zpow_natCast]
      field_simp
    · rw [abs_of_nonneg (Int.emod_nonneg _ (by positivity))]
      rw [abs_of_nonneg hm₀] at hm
      have hq : 0 ≤ (2 : Int) ^ k * (m / 2 ^ k) := by positivity
      omega

end Format

namespace Binary64

variable {a b : Binary64} {x y : Rat}

/-- A double is a number of the format, the one to which rounding has led. -/
theorem eq_of_ofRat (h : ofRat x = .finite y) :
    y = Format.binary64.onGrid x ∧ Format.binary64.HasDigits y ∧ |y| < Format.binary64.bound := by
  -- Not by `rw`: the equation of `ofRat` takes long to generate.
  delta ofRat at h
  rw [Format.round?, magnitude_eq_abs] at h
  by_cases hrange : |Format.binary64.onGrid x| < Format.binary64.bound
  · rw [if_pos hrange] at h
    cases h
    exact ⟨rfl, Format.hasDigits_onGrid (by decide) x, hrange⟩
  · rw [if_neg hrange] at h
    dsimp only at h
    split at h
    · cases h
    · cases h

/-- Numbers of the format are rounded to themselves. -/
theorem ofRat_of_hasDigits (h : Format.binary64.HasDigits x) (hx : |x| < Format.binary64.bound) :
    ofRat x = .finite x := by
  delta ofRat
  rw [Format.round?, h.onGrid_eq, magnitude_eq_abs, if_pos hx]

/-- A number that is rounded into the range is rounded to the grid. -/
theorem ofRat_of_onGrid_lt (h₀ : 0 ≤ x)
    (h : Format.binary64.onGrid x < Format.binary64.bound) :
    ofRat x = .finite (Format.binary64.onGrid x) := by
  delta ofRat
  rw [Format.round?, magnitude_eq_abs, abs_of_nonneg (Format.onGrid_nonneg h₀), if_pos h]

/-- What is no larger than a double does not overflow. -/
theorem ofRat_of_le (h₀ : 0 ≤ x) (hy : Format.binary64.HasDigits y)
    (hrange : y < Format.binary64.bound) (h : x ≤ y) :
    ofRat x = .finite (Format.binary64.onGrid x) :=
  ofRat_of_onGrid_lt h₀ ((Format.onGrid_le hy h₀ h).trans_lt hrange)

/-- Less than one added to a double does not make it overflow. -/
theorem exists_ofRat_add (hx₀ : 0 ≤ x) (hx₁ : x < 1) (hy₀ : 0 ≤ y)
    (hy : Format.binary64.HasDigits y) (hrange : y < Format.binary64.bound) :
    ∃ z, ofRat (x + y) = .finite z := by
  let spacing : Rat := 2 ^ (Format.binary64.maxExponent - Format.binary64.precision : Int)
  have hspacing : 1 < spacing / 2 := by
    have hpow : (2 : Rat) < spacing := by
      calc (2 : Rat) = 2 ^ (1 : Int) := (zpow_one 2).symm
        _ < spacing := zpow_lt_zpow_right₀ one_lt_two (by decide)
    linarith
  have hlargest : x + y < Format.binary64.largest + spacing / 2 := by
    linarith [hy.le_largest hrange]
  have hgrid : Format.binary64.onGrid (x + y) ≤ Format.binary64.largest :=
    Format.onGrid_le_largest (by decide) (by decide) (add_nonneg hx₀ hy₀) hlargest
  refine ⟨_, ofRat_of_onGrid_lt (add_nonneg hx₀ hy₀) (hgrid.trans_lt ?_)⟩
  rw [Format.bound_eq_largest_add]
  exact lt_add_of_pos_right _ (by positivity)

/-- One in so many, at least one, is a double of at most one. -/
theorem ofRat_one_div (h : 1 ≤ x) : ∃ y, ofRat (1 / x) = .finite y ∧ 0 ≤ y ∧ y ≤ 1 := by
  have hx : 0 < x := zero_lt_one.trans_le h
  have hle : 1 / x ≤ 1 := (div_le_one hx).2 h
  have hone : Format.binary64.HasDigits 1 := Format.hasDigits_one (by decide) (by decide)
  have hrange : (1 : Rat) < Format.binary64.bound := one_lt_pow₀ one_lt_two (by decide)
  have hnonneg : 0 ≤ 1 / x := (div_pos zero_lt_one hx).le
  exact ⟨_, ofRat_of_le hnonneg hone hrange hle, Format.onGrid_nonneg hnonneg,
    Format.onGrid_le hone hnonneg hle⟩

/-- What is below zero stays there, unless it is smaller than the smallest double. -/
theorem isNegative_ofRat (hx : x < 0) (h : (2 : Rat) ^ Format.binary64.minExponent ≤ |x|) :
    (ofRat x).isNegative = true := by
  have hgrid := Format.onGrid_neg (by decide) hx h
  delta ofRat
  rw [Format.round?]
  split
  · next y hy =>
    split at hy
    · cases hy
      simpa using hgrid
    · cases hy
  · rw [if_pos hx]
    rfl

/-- What is left of a double when its whole part is taken off is not rounded. -/
theorem ofRat_sub_wholePart (h : ofRat x = .finite y) (hy : 0 ≤ y) :
    ofRat (y - wholePart y) = .finite (Int.fract y) := by
  obtain ⟨-, hdigits, hrange⟩ := eq_of_ofRat h
  rw [wholePart_of_nonneg hy]
  refine ofRat_of_hasDigits (hdigits.fract hy) (lt_of_le_of_lt ?_ hrange)
  rw [Int.self_sub_floor, abs_of_nonneg (Int.fract_nonneg y), abs_of_nonneg hy]
  exact sub_le_self y (Int.cast_nonneg (Int.floor_nonneg.2 hy))

/-- An integer that fits is rounded to the grid. -/
theorem eq_of_ofInt? {n : Int} (h : ofInt? n = some a) :
    a = .finite (Format.binary64.onGrid n) ∧
      Format.binary64.HasDigits (Format.binary64.onGrid n) ∧
      |Format.binary64.onGrid n| < Format.binary64.bound := by
  rw [ofInt?, Format.round?, magnitude_eq_abs] at h
  split at h
  · next hrange =>
    exact ⟨(Option.some.inj h).symm, Format.hasDigits_onGrid (by decide) _, hrange⟩
  · cases h

/-- An integer that has no more digits than a double is one. -/
theorem ofInt?_of_lt {n : Int} (h : |n| < 2 ^ 53) : ofInt? n = some (.finite n) := by
  have hdigits : Format.binary64.HasDigits n := Format.hasDigits_intCast h (by decide)
  have hrange := Format.abs_intCast_lt_bound (F := .binary64) h (by decide)
  rw [ofInt?, Format.round?, hdigits.onGrid_eq, magnitude_eq_abs, if_pos hrange]
  rfl

/-- Only finite numbers have a finite sum. -/
theorem finite_of_add (h : a + b = .finite x) : ∃ y z, a = .finite y ∧ b = .finite z := by
  cases a with
  | finite y =>
    cases b with
    | finite z => exact ⟨y, z, rfl, rfl⟩
    | _ => cases h
  | _ => cases b <;> cases h

/-- An infinity is no finite number, nor is what there is instead of one at zero. -/
theorem infinityAt_ne_finite (x y : Rat) :
    infinityAt x ≠ .finite y ∧ -infinityAt x ≠ .finite y := by
  unfold infinityAt
  split
  · exact ⟨nofun, nofun⟩
  · split
    · exact ⟨nofun, nofun⟩
    · exact ⟨nofun, nofun⟩

/-- Only finite numbers have a finite product. -/
theorem finite_of_mul (h : a * b = .finite x) : ∃ y z, a = .finite y ∧ b = .finite z := by
  cases a with
  | finite y =>
    cases b with
    | finite z => exact ⟨y, z, rfl, rfl⟩
    | infinity => exact absurd h (infinityAt_ne_finite y x).1
    | negInfinity => exact absurd h (infinityAt_ne_finite y x).2
    | nan => cases h
  | infinity =>
    cases b with
    | finite z => exact absurd h (infinityAt_ne_finite z x).1
    | _ => cases h
  | negInfinity =>
    cases b with
    | finite z => exact absurd h (infinityAt_ne_finite z x).2
    | _ => cases h
  | nan =>
    rw [nan_mul] at h
    cases h

/-- A sum with what is no finite number is none. -/
theorem toRat?_add (h : a.toRat? = none) (b : Binary64) : (a + b).toRat? = none := by
  cases hsum : a + b with
  | finite x =>
    obtain ⟨y, z, rfl, rfl⟩ := finite_of_add hsum
    cases h
  | _ => rfl

end Binary64

end ChipEight
