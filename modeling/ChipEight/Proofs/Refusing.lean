import ChipEight.Proofs.Account
import ChipEight.Proofs.Loading
import ChipEight.Proofs.Rounding

/-!
# Time that is refused

A time step that is refused spends nothing: all stays as it was but for the account, and that too if
no sum has been made.  A sum that is no finite number spoils the account.  Since no sum with it is
finite either, every further time step is refused, until the clocks are reset.
-/

namespace ChipEight

namespace Interpreter

variable {i j : Interpreter} {dt : Binary64} {c : Command}

/-- What waits in the account is no finite number. -/
def Spoilt (i : Interpreter) : Prop := i.pacer.pending.toRat? = none

/-- None of the commands restarts the clocks when its turn comes. -/
def NeverRestarts : List Command → Interpreter → Prop
  | [], _ => True
  | c :: commands, i => ¬ i.Restarts c ∧ NeverRestarts commands (perform c i).state

/-! ## Refusals -/

/-- A time step is refused before a sum is made, or because of it. -/
theorem refusal_cases {r : Refusal} (h : (advance dt i).result = .error (.refusal r)) :
    ((dt.isNegative = true ∨ Binary64.ofInt? i.pacer.clockRate = none) ∧
        advance dt i = ⟨i, .error (.refusal r), []⟩) ∨
      ∃ y, y.toRat? = none ∧ dt.isNegative = false ∧
        Binary64.ofInt? i.pacer.clockRate ≠ none ∧
        advance dt i = ⟨i.withPending y, .error (.refusal r), []⟩ := by
  have ho := advances_advance dt i
  generalize advance dt i = o at h ho
  cases ho with
  | backwards hdt =>
    cases h
    exact .inl ⟨.inl hdt, rfl⟩
  | halted _ _ => cases h
  | rateOutOfRange _ _ hsum =>
    cases h
    exact .inl ⟨.inr (Option.map_eq_none_iff.1 hsum), rfl⟩
  | @notFinite y _ hdt _ hsum hy =>
    cases h
    refine .inr ⟨y, hy, hdt, fun hnone ↦ ?_, rfl⟩
    rw [Pacer.sum?, hnone] at hsum
    cases hsum
  | @spent x _ _ _ =>
    rw [Action.result_map] at h
    obtain ⟨hr, -⟩ | ⟨f, hr⟩ := turns_cases (wholePart x).toNat
      (i.withPending (.ofRat (x - wholePart x)))
    · rw [hr] at h
      cases h
    · rw [hr] at h
      cases h

/-! ## Spoilt accounts -/

/-- No sum with what is no finite number is one. -/
theorem Spoilt.toRat?_sum (h : i.Spoilt) {y : Binary64} (hsum : i.pacer.sum? dt = some y) :
    y.toRat? = none := by
  obtain ⟨rate, -, rfl⟩ := Option.map_eq_some_iff.1 hsum
  exact Binary64.toRat?_add h _

/-- With a spoilt account time is refused and spends nothing. -/
theorem Spoilt.advance_eq (h : i.Spoilt) (hdt : dt.isNegative = false)
    (running : i.processor.isHalted = false) :
    ∃ r y, y.toRat? = none ∧ advance dt i = ⟨i.withPending y, .error (.refusal r), []⟩ := by
  have ho := advances_advance dt i
  generalize advance dt i = o at ho
  cases ho with
  | backwards hdt' => simp [hdt] at hdt'
  | halted _ halted => simp [running] at halted
  | rateOutOfRange _ _ _ => exact ⟨_, i.pacer.pending, h, rfl⟩
  | @notFinite y r _ _ _ hy => exact ⟨r, y, hy, rfl⟩
  | spent _ _ hsum => cases h.toRat?_sum hsum

/-- Only a restart of the clocks mends the account. -/
theorem Spoilt.perform (h : i.Spoilt) (hc : ¬ i.Restarts c) : (perform c i).state.Spoilt := by
  cases htime : i.time? c with
  | none => rwa [Spoilt, pacer_perform htime hc]
  | some dt =>
    rw [perform_of_time? htime, Action.state_map]
    cases hdt : dt.isNegative with
    | true => rwa [advance_of_isNegative hdt]
    | false =>
      cases running : i.processor.isHalted with
      | true => rwa [state_advance_of_isHalted running]
      | false =>
        obtain ⟨r, y, hy, ho⟩ := h.advance_eq hdt running
        rw [ho]
        exact hy

theorem Spoilt.performAll (h : i.Spoilt) {commands : List Command}
    (hc : NeverRestarts commands i) : (performAll commands i).Spoilt := by
  induction commands generalizing i with
  | nil => exact h
  | cons c commands ih => exact ih (h.perform hc.1) hc.2

/-- Whatever has been done, after a restart the clocks are as in the beginning. -/
theorem pacer_of_restarts {s : Settings} {source : Source} (h : new s source = .ok i)
    (hj : j.HasSettings s) (hc : j.Restarts c) :
    (Interpreter.perform c j).state.pacer = i.pacer := by
  obtain ⟨hi, -⟩ := hasSettings_new h
  have hclock : j.pacer.clockRate = i.pacer.clockRate :=
    Int.ofNat_inj.1 (hj.clockRate.trans hi.clockRate.symm)
  have htimer : j.pacer.timerRate = i.pacer.timerRate :=
    Int.ofNat_inj.1 (hj.timerRate.trans hi.timerRate.symm)
  rw [pacer_perform_of_restarts hc, Pacer.reset_congr hclock htimer]
  exact congrArg pacer (resetPacer_new h)

/-- Time that is refused spends nothing.  At any clock rates and whatever has been done, a time step
that is refused changes at most the account: not even that if the time is negative or the clock rate
is out of range, and otherwise it leaves no finite number there.  As long as the clocks are not
restarted there is never a finite number again, and on a processor that runs every time step that is
not negative is refused and spends nothing.  A restart makes the clocks what they were in the
beginning. -/
theorem refused_time_spends_nothing {s : Settings} {source : Source} {i₀ : Interpreter}
    (h₀ : new s source = .ok i₀) (past : List Command) {c : Command} {dt : Binary64} {r : Refusal}
    (hc : (performAll past i₀).time? c = some dt)
    (hr : (perform c (performAll past i₀)).result = .error (.refusal r)) :
    let i := performAll past i₀
    let j := (perform c i).state
    (∃ y, j = i.withPending y) ∧
    (dt.isNegative = true ∨ Binary64.ofInt? s.clockRate = none → j = i) ∧
    (dt.isNegative = false → Binary64.ofInt? s.clockRate ≠ none → j.pacer.pending.toRat? = none) ∧
    (j.pacer.pending.toRat? = none →
      ∀ later, NeverRestarts later j →
        let k := performAll later j
        k.pacer.pending.toRat? = none ∧
        (∀ c' dt', k.time? c' = some dt' → dt'.isNegative = false →
          k.processor.isHalted = false →
          ∃ r' y, perform c' k = ⟨k.withPending y, .error (.refusal r'), []⟩) ∧
        ∀ c', k.Restarts c' → (perform c' k).state.pacer = i₀.pacer) := by
  intro i j
  have hsettings : i.HasSettings s := hasSettings_performAll h₀ past
  have hj : j = (advance dt i).state := by
    change (perform c i).state = _
    rw [perform_of_time? hc, Action.state_map]
  rw [perform_eq_error_iff hc] at hr
  refine ⟨?_, ?_, fun hdt hrate ↦ ?_, fun hspoilt later hlater ↦ ?_⟩
  · obtain ⟨-, ho⟩ | ⟨y, -, -, -, ho⟩ := refusal_cases hr
    · exact ⟨i.pacer.pending, hj.trans (congrArg Outcome.state ho)⟩
    · exact ⟨y, hj.trans (congrArg Outcome.state ho)⟩
  · intro hunsummed
    rw [← hsettings.clockRate] at hunsummed
    obtain ⟨-, ho⟩ | ⟨y, -, hdt, hrate, -⟩ := refusal_cases hr
    · exact hj.trans (congrArg Outcome.state ho)
    · obtain hneg | hnone := hunsummed
      · simp [hdt] at hneg
      · exact absurd hnone hrate
  · rw [← hsettings.clockRate] at hrate
    obtain ⟨hneg | hnone, -⟩ | ⟨y, hy, -, -, ho⟩ := refusal_cases hr
    · simp [hdt] at hneg
    · exact absurd hnone hrate
    · rw [hj, ho]
      exact hy
  · intro k
    have hk : k.Spoilt := Spoilt.performAll hspoilt hlater
    have hk_settings : k.HasSettings s := by
      have hrun := hasSettings_performAll h₀ (past ++ c :: later)
      rwa [performAll, List.foldl_append] at hrun
    refine ⟨hk, fun c' dt' hc' hdt' running ↦ ?_, fun c' hc' ↦ ?_⟩
    · obtain ⟨r', y, -, ho⟩ := hk.advance_eq hdt' running
      rw [perform_of_time? hc', Action.map_apply, ho]
      exact ⟨r', y, rfl⟩
    · exact pacer_of_restarts h₀ hk_settings hc'

/-- Time without end spoils the account for good, until the clocks are reset. -/
theorem endless_time_spends_nothing :
    let i : Interpreter := { bare with loaded := false }
    let j := (perform (.advance .infinity) i).state
    let k := performAll [.advance .negInfinity, .setKey 3 true, .advance .nan, .step] j
    (∃ y, j = i.withPending y) ∧
      (∃ r y, perform (.advance (.finite 1)) k = ⟨k.withPending y, .error (.refusal r), []⟩) ∧
      (perform .resetPacer k).state.pacer = i.pacer := by
  intro i j k
  have hi : new {} default = .ok i := rfl
  have hrefused : (perform (.advance .infinity) i).result = .error (.refusal .infinite) := by
    decide +kernel
  obtain ⟨hj, -, -, hspoilt⟩ := refused_time_spends_nothing hi [] rfl hrefused
  have hj_spoilt : j.pacer.pending.toRat? = none := by decide +kernel
  have hnever : NeverRestarts [.advance .negInfinity, .setKey 3 true, .advance .nan, .step] j :=
    ⟨id, id, id, id, trivial⟩
  obtain ⟨-, hlater, hrestart⟩ := hspoilt hj_spoilt _ hnever
  have running : k.processor.isHalted = false := by decide +kernel
  exact ⟨hj, hlater _ (.finite 1) rfl (by decide +kernel) running, hrestart .resetPacer trivial⟩

end Interpreter

end ChipEight
