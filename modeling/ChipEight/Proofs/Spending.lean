import ChipEight.Proofs.Account
import ChipEight.Proofs.Rounding

/-!
# Time is conserved

As long as the sums that time steps make are finite, less than one instruction waits in the account,
and what a time step spends and what it leaves are together the sum that it has made: to take whole
instructions out of the account never rounds.  Where nothing else is rounded either, the
instructions that have been spent since the clocks were reset are the whole ones in all that time,
however it has been cut into steps.
-/

namespace ChipEight

namespace Interpreter

variable {i j : Interpreter} {dt : Binary64} {x : Rat}

/-- The sum that a time step makes is finite, if it makes one. -/
def SumsFinite (i : Interpreter) (dt : Binary64) : Prop :=
  dt.isNegative = false → i.processor.isHalted = false →
    ∀ y, i.pacer.sum? dt = some y → ∃ x, y = .finite x

/-- What a host comes to from a reset of the clocks if all sums on the way are finite. -/
inductive Timed : Interpreter → Prop
  | reset (i : Interpreter) : Timed i.resetPacer
  | perform {i : Interpreter} {c : Command} (h : Timed i)
      (finite : ∀ dt, i.time? c = some dt → i.SumsFinite dt) : Timed (perform c i).state

theorem timed_new {s : Settings} {source : Source} (h : new s source = .ok i) : i.Timed := by
  rw [← resetPacer_new h]
  exact .reset i

/-- Less than one instruction waits in the account. -/
def HoldsFraction (i : Interpreter) : Prop := ∃ p, i.pacer.pending = .finite p ∧ 0 ≤ p ∧ p < 1

/-! ## One time step -/

/-- A finite sum comes from a finite time step and is rounded as the doubles say. -/
theorem sum?_eq_finite (hi : i.HoldsFraction) (hdt : dt.isNegative = false)
    (h : i.pacer.sum? dt = some (.finite x)) :
    let fl := Format.binary64.onGrid
    ∃ p t, i.pacer.pending = .finite p ∧ dt = .finite t ∧
      Binary64.ofRat (p + fl (t * fl i.pacer.clockRate)) = .finite x ∧ 0 ≤ x := by
  intro fl
  obtain ⟨p, hp, hp₀, -⟩ := hi
  obtain ⟨rate, hrate, hsum⟩ := Option.map_eq_some_iff.1 h
  obtain ⟨_, z, -, hz⟩ := Binary64.finite_of_add hsum
  obtain ⟨t, r, rfl, rfl⟩ := Binary64.finite_of_mul hz
  obtain rfl : r = fl i.pacer.clockRate := by
    have hr := (Binary64.eq_of_ofInt? hrate).1
    rwa [Binary64.finite.injEq, Int.cast_natCast] at hr
  obtain ⟨rfl, -, -⟩ := Binary64.eq_of_ofRat hz
  rw [hz, hp, Binary64.finite_add_finite] at hsum
  refine ⟨p, t, hp, rfl, hsum, ?_⟩
  have ht : 0 ≤ t := not_lt.1 (of_decide_eq_false hdt)
  have hr : 0 ≤ fl i.pacer.clockRate := Format.onGrid_nonneg (Nat.cast_nonneg _)
  have hz : 0 ≤ fl (t * fl i.pacer.clockRate) := Format.onGrid_nonneg (mul_nonneg ht hr)
  rw [(Binary64.eq_of_ofRat hsum).1]
  exact Format.onGrid_nonneg (add_nonneg hp₀ hz)

theorem toNat_floor_add_fract (hx : 0 ≤ x) : (⌊x⌋.toNat : Rat) + Int.fract x = x := by
  have hfloor : (⌊x⌋.toNat : Int) = ⌊x⌋ := Int.toNat_of_nonneg (Int.floor_nonneg.2 hx)
  rw [← Int.cast_natCast, hfloor, Int.floor_add_fract]

/-- The whole part of a finite sum is spent, unless a fault ends it, and the rest is left. -/
theorem advance_of_finite (hi : i.HoldsFraction) (hdt : dt.isNegative = false)
    (running : i.processor.isHalted = false) (h : i.pacer.sum? dt = some (.finite x)) :
    let o := advance dt i
    o.state.pacer.pending = .finite (Int.fract x) ∧
      ((o.result = .ok ⌊x⌋.toNat ∧
          o.state.pacer.instructions = i.pacer.instructions + ⌊x⌋.toNat) ∨
        ∃ f, o.result = .error (.fault f)) := by
  intro o
  obtain ⟨_, _, -, -, hsum, hx⟩ := sum?_eq_finite hi hdt h
  have ho : Advances dt i o := advances_advance dt i
  generalize o = o' at ho
  cases ho with
  | backwards hdt' => simp [hdt] at hdt'
  | halted _ halted => simp [running] at halted
  | rateOutOfRange _ _ hnone => simp [h] at hnone
  | notFinite refusal _ _ hsum' hy =>
    rw [h] at hsum'
    cases hsum'
    cases hy
  | @spent x' _ _ hsum' =>
    obtain rfl : x = x' := by simpa [h] using hsum'
    rw [Binary64.ofRat_sub_wholePart hsum hx, wholePart_of_nonneg hx, Action.map_apply]
    refine ⟨pending_turns _ _, ?_⟩
    obtain ⟨hr, hcount⟩ | ⟨f, hr⟩ := turns_cases ⌊x⌋.toNat (i.withPending (.finite (Int.fract x)))
    · rw [hr]
      exact .inl ⟨rfl, hcount⟩
    · rw [hr]
      exact .inr ⟨f, rfl⟩

/-- Less than one instruction is left of a finite sum. -/
theorem holdsFraction_advance (hi : i.HoldsFraction) (finite : i.SumsFinite dt) :
    (advance dt i).state.HoldsFraction := by
  have ho := advances_advance dt i
  generalize hadvance : advance dt i = o at ho
  cases ho with
  | backwards _ => exact hi
  | halted _ _ => exact hi
  | rateOutOfRange _ _ _ => exact hi
  | notFinite refusal hdt running hsum hy =>
    obtain ⟨x, rfl⟩ := finite hdt running _ hsum
    cases hy
  | @spent x hdt running hsum =>
    rw [← hadvance]
    obtain ⟨hpending, -⟩ := advance_of_finite hi hdt running hsum
    exact ⟨_, hpending, Int.fract_nonneg x, Int.fract_lt_one x⟩

theorem Timed.holdsFraction (h : i.Timed) : i.HoldsFraction := by
  induction h with
  | reset i => exact ⟨0, rfl, le_rfl, zero_lt_one⟩
  | @perform i c _ finite ih =>
    by_cases hc : i.Restarts c
    · refine ⟨0, ?_, le_rfl, zero_lt_one⟩
      rw [pacer_perform_of_restarts hc]
      rfl
    · cases htime : i.time? c with
      | none => rwa [HoldsFraction, pacer_perform htime hc]
      | some dt =>
        rw [perform_of_time? htime, Action.state_map]
        exact holdsFraction_advance ih (finite dt htime)

/-! ## Time steps in a row -/

/-- Neither the clock rate nor the time step in instructions nor the sum is rounded. -/
structure SumsExactly (i : Interpreter) (t : Rat) : Prop where
  rate : Binary64.ofInt? i.pacer.clockRate = some (.finite i.pacer.clockRate)
  product : Binary64.ofRat (t * i.pacer.clockRate) = .finite (t * i.pacer.clockRate)
  sum : ∀ p, i.pacer.pending = .finite p →
    Binary64.ofRat (p + t * i.pacer.clockRate) = .finite (p + t * i.pacer.clockRate)

/-- The time steps `ts` that a host makes, with commands in between that have nothing to do with the
clocks, take the interpreter from `i` to `j`: nothing is rounded, the processor runs, and no step
fails.  Their answers add up to `n` instructions. -/
inductive Spends (i : Interpreter) : List Rat → Nat → Interpreter → Prop
  | nothing : Spends i [] 0 i
  | aside {ts : List Rat} {n : Nat} {j : Interpreter} {c : Command} (h : Spends i ts n j)
      (htime : j.time? c = none) (hc : ¬ j.Restarts c) : Spends i ts n (perform c j).state
  | timeStep {ts : List Rat} {n count : Nat} {j : Interpreter} {c : Command} {t : Rat}
      (h : Spends i ts n j) (htime : j.time? c = some (.finite t))
      (running : j.processor.isHalted = false) (sums : j.SumsExactly t)
      (answer : (perform c j).result = .ok (.count count)) :
      Spends i (ts ++ [t]) (n + count) (perform c j).state

/-- What has been spent and what waits in the account are together all the time that has been handed
over. -/
theorem Spends.conserved {ts : List Rat} {n : Nat} (h : Spends i.resetPacer ts n j) :
    j.pacer.clockRate = i.pacer.clockRate ∧ j.pacer.instructions = n ∧
      ∃ p, j.pacer.pending = .finite p ∧ 0 ≤ p ∧ p < 1 ∧ n + p = i.pacer.clockRate * ts.sum := by
  induction h with
  | nothing => exact ⟨rfl, rfl, 0, rfl, le_rfl, zero_lt_one, by simp⟩
  | aside h htime hc ih => rwa [pacer_perform htime hc]
  | @timeStep ts n count j c t h htime running sums answer ih =>
    obtain ⟨hclock, hinstructions, p, hp, hp₀, hp₁, hn⟩ := ih
    have hanswer : (advance (.finite t) j).result = .ok count :=
      (perform_eq_count_iff htime).1 answer
    have hdt : (Binary64.finite t).isNegative = false := by
      by_contra hneg
      rw [advance_of_isNegative (by simpa using hneg)] at hanswer
      cases hanswer
    have hsum : j.pacer.sum? (.finite t) = some (.finite (p + t * j.pacer.clockRate)) := by
      rw [Pacer.sum?, sums.rate, Option.map_some, Binary64.finite_mul_finite, sums.product, hp,
        Binary64.finite_add_finite, sums.sum p hp]
    have hj : j.HoldsFraction := ⟨p, hp, hp₀, hp₁⟩
    rw [perform_of_time? htime, Action.state_map]
    refine ⟨?_, ?_⟩
    · rw [clockRate_advance, hclock]
    obtain ⟨hpending, ⟨hspent, hcount⟩ | ⟨f, hfault⟩⟩ := advance_of_finite hj hdt running hsum
    · rw [hclock] at hpending hspent hcount
      rw [hspent] at hanswer
      cases hanswer
      refine ⟨?_, _, hpending, Int.fract_nonneg _, Int.fract_lt_one _, ?_⟩
      · rw [hcount, hinstructions]
      · obtain ⟨-, -, -, -, -, hx⟩ := sum?_eq_finite hj hdt hsum
        rw [hclock] at hx
        calc ((n + ⌊p + t * i.pacer.clockRate⌋.toNat : Nat) : Rat) +
              Int.fract (p + t * i.pacer.clockRate)
            = n + (p + t * i.pacer.clockRate) := by
              rw [Nat.cast_add, add_assoc, toNat_floor_add_fract hx]
          _ = i.pacer.clockRate * ts.sum + t * i.pacer.clockRate := by rw [← add_assoc, hn]
          _ = i.pacer.clockRate * (ts ++ [t]).sum := by
              rw [List.sum_append, List.sum_singleton, mul_add, mul_comm t]
    · rw [hfault] at hanswer
      cases hanswer

/-- Time is conserved.  As long as all sums are finite, less than one instruction waits in the
account.  A time step on a processor that runs, with `fl` for rounding to the nearest double, leaves
less than one instruction there, and unless a fault ends it answers with the number of instructions
that it has made, which is exactly what is missing in the account.  And if nothing is rounded, time
steps answer with as many instructions as there are whole ones in all their time since a reset of
the clocks, however that time is cut. -/
theorem time_is_conserved :
    (∀ i : Interpreter, i.Timed →
      ∃ p, i.pacer.pending = .finite p ∧ 0 ≤ p ∧ p < 1 ∧
        ∀ dt x, dt.isNegative = false → i.processor.isHalted = false →
          i.pacer.sum? dt = some (.finite x) →
          let fl := Format.binary64.onGrid
          let o := advance dt i
          ∃ t y, dt = .finite t ∧ x = fl (p + fl (t * fl i.pacer.clockRate)) ∧
            o.state.pacer.pending = .finite y ∧ 0 ≤ y ∧ y < 1 ∧
            ((∃ count : Nat, o.result = .ok count ∧ count + y = x ∧
                o.state.pacer.instructions = i.pacer.instructions + count) ∨
              ∃ f, o.result = .error (.fault f))) ∧
    ∀ (i j : Interpreter) (ts : List Rat) (n : Nat), Spends i.resetPacer ts n j →
      (n : Int) = ⌊i.pacer.clockRate * ts.sum⌋ ∧ j.pacer.instructions = n := by
  constructor
  · intro i hi
    have hfraction : i.HoldsFraction := hi.holdsFraction
    obtain ⟨p, hp, hp₀, hp₁⟩ := hfraction
    refine ⟨p, hp, hp₀, hp₁, fun dt x hdt running hsum ↦ ?_⟩
    intro fl o
    obtain ⟨p', t, hp', ht, hx, hx₀⟩ := sum?_eq_finite hi.holdsFraction hdt hsum
    obtain rfl : p = p' := by simpa [hp] using hp'
    obtain ⟨hpending, hspent⟩ := advance_of_finite hi.holdsFraction hdt running hsum
    refine ⟨t, Int.fract x, ht, (Binary64.eq_of_ofRat hx).1, hpending, Int.fract_nonneg x,
      Int.fract_lt_one x, ?_⟩
    obtain ⟨hcount, hinstructions⟩ | hfault := hspent
    · exact .inl ⟨_, hcount, toNat_floor_add_fract hx₀, hinstructions⟩
    · exact .inr hfault
  · intro i j ts n h
    obtain ⟨-, hinstructions, p, -, hp₀, hp₁, hn⟩ := h.conserved
    refine ⟨(Int.floor_eq_iff.2 ⟨?_, ?_⟩).symm, hinstructions⟩
    · rw [← hn, Int.cast_natCast]
      exact le_add_of_nonneg_right hp₀
    · rw [← hn, Int.cast_natCast]
      exact add_lt_add_right hp₁ _

/-- Two time steps of which neither makes a whole instruction make one together. -/
theorem short_steps_are_conserved :
    let i : Interpreter := { bare with loaded := false }
    let dt := Binary64.finite (1 / 512)
    let write := Command.writeBlock 0x200 [0x12, 0x00]
    let j := performAll [write, .advance dt, .setKey 3 true, .advance dt] i.resetPacer
    (∃ y, (advance dt i).state.pacer.pending = .finite y ∧ 0 ≤ y ∧ y < 1) ∧
      Spends i.resetPacer [1 / 512, 1 / 512] 1 j ∧
      (1 : Int) = ⌊(i.pacer.clockRate : Rat) * [1 / 512, 1 / 512].sum⌋ ∧
      j.pacer.instructions = 1 := by
  intro i dt write j
  constructor
  · have hi : new {} default = .ok i := rfl
    obtain ⟨_, -, -, -, hstep⟩ := time_is_conserved.1 i (timed_new hi)
    obtain ⟨_, y, -, -, hpending, hy₀, hy₁, -⟩ :=
      hstep dt (125 / 128) (by decide +kernel) rfl (by decide +kernel)
    exact ⟨y, hpending, hy₀, hy₁⟩
  · have hsums {k : Interpreter} {p : Rat} (hclock : k.pacer.clockRate = 500)
        (hp : k.pacer.pending = .finite p)
        (hsum : Binary64.ofRat (p + 1 / 512 * (500 : Nat)) = .finite (p + 1 / 512 * (500 : Nat))) :
        k.SumsExactly (1 / 512) := by
      constructor
      · rw [hclock]
        decide +kernel
      · rw [hclock]
        decide +kernel
      · intro p' hp'
        cases hp.symm.trans hp'
        rwa [hclock]
    have hanswer : (perform (.advance dt) (performAll [write] i.resetPacer)).result =
        .ok (.count 0) := by
      decide +kernel
    have hanswer' : (perform (.advance dt) (performAll [write, .advance dt, .setKey 3 true]
        i.resetPacer)).result = .ok (.count 1) := by
      decide +kernel
    have hwrite := Spends.nothing.aside (i := i.resetPacer) (c := write) rfl fun h ↦ h
    have hfirst := hwrite.timeStep rfl (by decide +kernel)
      (hsums (p := 0) (by decide +kernel) (by decide +kernel) (by decide +kernel)) hanswer
    have hkey := hfirst.aside (c := .setKey 3 true) rfl fun h ↦ h
    have hspends := hkey.timeStep rfl (by decide +kernel)
      (hsums (p := 125 / 128) (by decide +kernel) (by decide +kernel) (by decide +kernel)) hanswer'
    exact ⟨hspends, time_is_conserved.2 _ _ _ _ hspends⟩

end Interpreter

end ChipEight
