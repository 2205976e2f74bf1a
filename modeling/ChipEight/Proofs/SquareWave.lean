import ChipEight.Desktop.Tone
import ChipEight.Proofs.Rounding

/-!
# The square wave

A sample is high where the phase has an odd whole part, and the phase is a rounded quotient.  Yet no
sample is on the wrong side of an edge.  A quotient of integers that is below an edge is so by at
least one part of its denominator, which is more than rounding can add as long as the numerator and
the denominator are doubles themselves.
-/

namespace ChipEight

/-! ## Quotients of integers -/

/-- The next integer above a quotient is at least the reciprocal of the denominator away. -/
theorem div_add_one_div_le (a : Nat) {b : Nat} (hb : 0 < b) :
    (a / b : Rat) + 1 / b ≤ ⌊(a / b : Rat)⌋ + 1 := by
  have hnext : a + 1 ≤ (a / b + 1) * b := Nat.lt_mul_of_div_lt (Nat.lt_succ_self _) hb
  rw [Rat.floor_natCast_div_natCast, ← add_div, div_le_iff₀ (Nat.cast_pos.2 hb)]
  exact_mod_cast hnext

namespace Format

variable {F : Format} {a b : Nat}

/-- Half of the spacing around a quotient of integers that both fit the format is less than the
reciprocal of the denominator. -/
theorem half_spacing_lt (hmin : F.minExponent + F.precision ≤ 1) (ha₀ : 0 < a)
    (ha : a < 2 ^ F.precision) (hb₀ : 0 < b) (hb : b < 2 ^ F.precision) :
    (2 : Rat) ^ F.spacingExponent (a / b) / 2 < 1 / b := by
  have hb' : (0 : Rat) < b := Nat.cast_pos.2 hb₀
  have hx : (0 : Rat) < a / b := div_pos (Nat.cast_pos.2 ha₀) hb'
  rw [lt_div_iff₀ hb', div_mul_eq_mul_div, div_lt_one two_pos]
  obtain hs | hs := max_choice (leadingExponent (a / b : Rat) - F.precision + 1) F.minExponent
  · have hlead := (leadingExponent_spec hx.ne').1
    rw [abs_of_pos hx, le_div_iff₀ hb'] at hlead
    rw [spacingExponent, hs, zpow_add_one₀ two_ne_zero, zpow_sub₀ two_ne_zero, zpow_natCast]
    calc (2 : Rat) ^ leadingExponent (a / b : Rat) / 2 ^ F.precision * 2 * b
        = (2 : Rat) ^ leadingExponent (a / b : Rat) * b / 2 ^ F.precision * 2 := by ring
      _ < 1 * 2 := by
        refine mul_lt_mul_of_pos_right ?_ two_pos
        rw [div_lt_one (by positivity)]
        exact hlead.trans_lt (mod_cast ha)
      _ = 2 := one_mul 2
  · rw [spacingExponent, hs]
    calc (2 : Rat) ^ F.minExponent * b < 2 ^ F.minExponent * 2 ^ F.precision :=
          mul_lt_mul_of_pos_left (mod_cast hb) (by positivity)
      _ = 2 ^ (F.minExponent + F.precision) := by rw [zpow_add₀ two_ne_zero, zpow_natCast]
      _ ≤ 2 ^ (1 : Int) := zpow_le_zpow_right₀ one_le_two hmin
      _ = 2 := zpow_one 2

/-- Rounding does not change the whole part of a quotient of integers that both fit the format. -/
theorem floor_onGrid_div (hp : 0 < F.precision) (hmin : F.minExponent + F.precision ≤ 1)
    (ha : a < 2 ^ F.precision) (hb₀ : 0 < b) (hb : b < 2 ^ F.precision) :
    ⌊F.onGrid (a / b)⌋ = ⌊(a / b : Rat)⌋ := by
  obtain rfl | ha₀ := a.eq_zero_or_pos
  · rw [Nat.cast_zero, zero_div, F.hasDigits_zero.onGrid_eq]
  · have hx₀ : (0 : Rat) ≤ a / b := div_nonneg (Nat.cast_nonneg a) (Nat.cast_nonneg b)
    have hx : (a / b : Rat) < 2 ^ F.precision := by
      calc (a / b : Rat) ≤ a := div_le_self (Nat.cast_nonneg a) (mod_cast hb₀)
        _ < 2 ^ F.precision := mod_cast ha
    refine floor_onGrid hp (by omega) hx₀ hx ?_
    calc (a / b : Rat) + 2 ^ F.spacingExponent (a / b) / 2 < a / b + 1 / b :=
          add_lt_add_right (half_spacing_lt hmin ha₀ ha hb₀ hb) _
      _ ≤ ⌊(a / b : Rat)⌋ + 1 := div_add_one_div_le a hb₀

end Format

/-! ## Samples -/

namespace Tone

open Format (binary64)

variable {toneRate sampleRate t : Nat}

theorem wrap64_of_lt {n : Nat} (h : n < 2 ^ 63) : wrap64 n = n := by
  rw [wrap64, Int64.toInt_ofInt_of_le (by omega) (by omega)]

/-- The remainder in steps of two is at least one exactly if the whole part is odd. -/
theorem isHigh_finite_iff (x : Rat) : isHigh (.finite x) = true ↔ Odd ⌊x⌋ := by
  have hhalf : (x / 2).floor = ⌊x⌋ / 2 := Int.floor_div_natCast x 2
  have hcast : (2 : Rat) * (⌊x⌋ / 2 : Int) = (2 * (⌊x⌋ / 2) : Int) := by push_cast; rfl
  rw [isHigh, decide_eq_true_iff, floorMod, hhalf, hcast, le_sub_iff_add_le, ← Int.cast_one,
    ← Int.cast_add, ← Int.le_floor, Int.odd_iff]
  omega

/-- Nothing but the quotient is rounded. -/
theorem phase_eq (hx : 2 * t * toneRate < 2 ^ 53) (hr₀ : 0 < sampleRate)
    (hr : sampleRate < 2 ^ 53) :
    phase toneRate sampleRate t =
      .finite (binary64.onGrid ((2 * t * toneRate : Nat) / sampleRate)) := by
  have hproduct : wrap64 (t * toneRate * 2) = (2 * t * toneRate : Nat) := by
    have hcomm : (t * toneRate * 2 : Int) = (2 * t * toneRate : Nat) := by
      push_cast
      ring
    rw [hcomm, wrap64_of_lt (hx.trans (by decide))]
  generalize 2 * t * toneRate = a at *
  have ha : |(a : Int)| < 2 ^ 53 := by
    rw [Nat.abs_cast]
    exact_mod_cast hx
  have hb : |(sampleRate : Int)| < 2 ^ 53 := by
    rw [Nat.abs_cast]
    exact_mod_cast hr
  have hdigits : binary64.HasDigits (a : Int) := Format.hasDigits_intCast ha (by decide)
  have hrange := Format.abs_intCast_lt_bound (F := binary64) ha (by decide)
  rw [Int.cast_natCast] at hdigits hrange
  rw [Nat.abs_cast] at hrange
  have hquotient : (0 : Rat) ≤ a / sampleRate := div_nonneg (Nat.cast_nonneg _) (Nat.cast_nonneg _)
  have hle : (a : Rat) / sampleRate ≤ a := div_le_self (Nat.cast_nonneg a) (mod_cast hr₀)
  -- Not by `rw`: the equation of `phase` takes long to generate.
  delta phase
  simp only [hproduct, Binary64.ofInt?_of_lt ha, Binary64.ofInt?_of_lt hb, Int.cast_natCast]
  exact Binary64.ofRat_of_le hquotient hdigits hrange hle

/-- The wave is high where the exact quotient has an odd whole part. -/
theorem isHigh_phase (hx : 2 * t * toneRate < 2 ^ 53) (hr₀ : 0 < sampleRate)
    (hr : sampleRate < 2 ^ 53) :
    isHigh (phase toneRate sampleRate t) = true ↔ Odd (2 * t * toneRate / sampleRate) := by
  rw [phase_eq hx hr₀ hr, isHigh_finite_iff,
    Format.floor_onGrid_div (by decide) (by decide) hx hr₀ hr, Rat.floor_natCast_div_natCast,
    ← Int.natCast_ediv, Int.odd_coe_nat]

theorem sample_one : sample 1 = 32767 ∧ sample (-1) = -32767 := by decide +kernel

/-- A beep is an exact square wave.  At full volume, as long as the integers involved are doubles,
each sample is high or low as the exact quotient has an odd whole part or an even one, also where
the quotient is an integer or next to one. -/
theorem square_wave_is_exact {toneRate sampleRate : Int} {duration : Binary64} {count : Nat}
    (htone : 0 ≤ toneRate) (hrate : 0 < sampleRate)
    (hcount : sampleCount sampleRate duration = .ok count)
    (hfits : 2 * count * toneRate + sampleRate < 2 ^ 53) :
    ∃ wave, squareWave toneRate sampleRate duration (.finite 1) = .ok wave ∧ wave.length = count ∧
      ∀ t < count,
        wave[t]? = some (if Odd (2 * t * toneRate / sampleRate) then 32767 else -32767) := by
  obtain ⟨tone, rfl⟩ := Int.eq_ofNat_of_zero_le htone
  obtain ⟨rate, rfl⟩ := Int.eq_ofNat_of_zero_le hrate.le
  obtain ⟨hhigh, hlow⟩ := sample_one
  refine ⟨samples tone rate count 1, ?_, ?_, fun t ht ↦ ?_⟩
  · rw [squareWave, hcount]
    rfl
  · rw [samples, List.length_map, List.length_range]
  · have hr₀ : 0 < rate := mod_cast hrate
    have hfits : 2 * count * tone + rate < 2 ^ 53 := mod_cast hfits
    have hx : 2 * t * tone < 2 ^ 53 := by
      have hle : 2 * t * tone ≤ 2 * count * tone :=
        Nat.mul_le_mul_right tone (Nat.mul_le_mul_left 2 ht.le)
      omega
    have hodd : Odd (2 * t * tone / rate : Int) ↔ isHigh (phase tone rate t) = true := by
      rw [isHigh_phase hx hr₀ (by omega), ← Int.odd_coe_nat]
      push_cast
      rfl
    rw [samples, List.getElem?_map, List.getElem?_range ht, Option.map_some, hhigh, hlow]
    simp only [hodd]

/-- Every fiftieth sample of 441 in a hundredth of a second lies exactly on an edge. -/
theorem samples_on_edges :
    sampleCount 44100 (.ofRat (1 / 100)) = .ok 441 ∧
      ∃ wave, squareWave 441 44100 (.ofRat (1 / 100)) (.finite 1) = .ok wave ∧
        wave.length = 441 ∧ wave[49]? = some (-32767) ∧ wave[50]? = some 32767 ∧
        wave[99]? = some 32767 ∧ wave[100]? = some (-32767) := by
  have htone : (0 : Int) ≤ 441 := by decide
  have hcount : sampleCount 44100 (.ofRat (1 / 100)) = .ok 441 := by decide +kernel
  obtain ⟨wave, hwave, hlength, hsample⟩ :=
    square_wave_is_exact htone (by decide) hcount (by decide)
  refine ⟨hcount, wave, hwave, hlength, ?_, ?_, ?_, ?_⟩
  · exact hsample 49 (by decide)
  · exact hsample 50 (by decide)
  · exact hsample 99 (by decide)
  · exact hsample 100 (by decide)

end Tone

end ChipEight
