import ChipEight.Proofs.FrameRate
import ChipEight.Proofs.Halting

/-!
# The account of time

A time step is refused outright, or lets the time pass, or makes a sum of the time in the account
and its own.  A sum that is no finite number stays in the account and is refused; of any other one
the whole instructions are spent and the rest stays in the account (`Advances`).  Nothing else
touches the account but loads and resets.
-/

namespace ChipEight

namespace Pacer

variable {p : Pacer} {dt y : Binary64} {x : Rat}

/-- The time in the account and that of a time step, in instructions; none if the clock rate is out
of range. -/
def sum? (p : Pacer) (dt : Binary64) : Option Binary64 :=
  (Binary64.ofInt? p.clockRate).map fun rate ↦ p.pending + dt * rate

theorem accrue_of_none (h : p.sum? dt = none) : p.accrue dt = (.error .integerTooLarge, p) := by
  have hrate : Binary64.ofInt? p.clockRate = none := Option.map_eq_none_iff.1 h
  -- Not by `rw`: the equation of `accrue` takes long to generate.
  delta accrue
  simp only [hrate]

/-- The whole instructions of a finite sum are taken out of the account. -/
theorem accrue_of_finite (h : p.sum? dt = some (.finite x)) :
    p.accrue dt =
      (.ok (wholePart x).toNat, { p with pending := .ofRat (x - wholePart x) }) := by
  obtain ⟨rate, hrate, hsum⟩ := Option.map_eq_some_iff.1 h
  delta accrue
  simp only [hrate, hsum]

/-- A sum that is no finite number stays in the account. -/
theorem accrue_of_not_finite (h : p.sum? dt = some y) (hy : y.toRat? = none) :
    ∃ refusal, p.accrue dt = (.error refusal, { p with pending := y }) := by
  obtain ⟨rate, hrate, hsum⟩ := Option.map_eq_some_iff.1 h
  delta accrue
  simp only [hrate, hsum]
  cases y with
  | finite x => cases hy
  | infinity => exact ⟨_, rfl⟩
  | negInfinity => exact ⟨_, rfl⟩
  | nan => exact ⟨_, rfl⟩

/-- Clocks at the same rates are the same after a reset. -/
theorem reset_congr {q : Pacer} (hclock : p.clockRate = q.clockRate)
    (htimer : p.timerRate = q.timerRate) : p.reset = q.reset := by
  simp only [reset, hclock, htimer]

theorem reset_of_ofRates {clockRate timerRate : Int} (h : ofRates clockRate timerRate = .ok p) :
    p.reset = p := by
  rw [ofRates] at h
  split at h
  · cases h
    rfl
  · cases h

end Pacer

namespace Interpreter

open ChipEight.Action (Preserves)

variable {i : Interpreter} {dt : Binary64}

/-! ## Turns -/

/-- Turns do not touch the account. -/
theorem preserves_pending_turn (y : Binary64) : Preserves (fun i ↦ i.pacer.pending = y) turn := by
  refine invariant_turn (fun i hi ↦ hi) fun i hi ↦ ?_
  rw [endTurn, payTimers, Pacer.payTimers, Pacer.settle_eq]
  exact hi

theorem pending_turns (count : Nat) (i : Interpreter) :
    (Action.replicate count turn i).state.pacer.pending = i.pacer.pending :=
  (preserves_pending_turn i.pacer.pending).replicate count i rfl

/-- A turn fails with a fault. -/
theorem fault_of_turn {e : Error} (h : (turn i).result = .error e) : ∃ f, e = .fault f := by
  cases hr : (stepProcessor i).result with
  | ok answer =>
    rw [(turn_of_ok hr).2] at h
    cases h
  | error e' =>
    rw [(turn_of_error hr).2] at h
    cases h
    obtain ⟨-, cause, -, rfl, -⟩ := Processor.stops_of_result_error hr
    exact ⟨_, rfl⟩

/-- Turns are all made and counted, or a fault ends them. -/
theorem turns_cases (count : Nat) (i : Interpreter) :
    let o := Action.replicate count turn i
    (o.result = .ok () ∧ o.state.pacer.instructions = i.pacer.instructions + count) ∨
      ∃ f, o.result = .error (.fault f) := by
  induction count generalizing i with
  | zero => exact .inl ⟨rfl, rfl⟩
  | succ count ih =>
    rw [Action.replicate_succ]
    cases hr : (stepProcessor i).result with
    | error e =>
      obtain ⟨-, hturn⟩ := turn_of_error hr
      obtain ⟨f, rfl⟩ := fault_of_turn hturn
      rw [Action.bind_of_error hturn]
      exact .inr ⟨f, rfl⟩
    | ok answer =>
      obtain ⟨hnext, hturn⟩ := turn_of_ok hr
      have hcount : (turn i).state.pacer.instructions = i.pacer.instructions + 1 := by
        rw [hnext, instructions_endTurn]
        rfl
      have hrest := ih (turn i).state
      rw [hcount, Nat.add_assoc, Nat.add_comm 1] at hrest
      rw [Action.bind_of_ok hturn]
      exact hrest

/-! ## Time steps -/

/-- What a time step can come to. -/
inductive Advances (dt : Binary64) (i : Interpreter) : Outcome Interpreter Nat → Prop
  | backwards (hdt : dt.isNegative = true) :
      Advances dt i ⟨i, .error (.refusal (.negativeTime dt)), []⟩
  | halted (hdt : dt.isNegative = false) (halted : i.processor.isHalted = true) :
      Advances dt i ⟨i, .ok 0, []⟩
  | rateOutOfRange (hdt : dt.isNegative = false) (running : i.processor.isHalted = false)
      (hsum : i.pacer.sum? dt = none) :
      Advances dt i ⟨i, .error (.refusal .integerTooLarge), []⟩
  | notFinite {y : Binary64} (refusal : Refusal) (hdt : dt.isNegative = false)
      (running : i.processor.isHalted = false) (hsum : i.pacer.sum? dt = some y)
      (hy : y.toRat? = none) : Advances dt i ⟨i.withPending y, .error (.refusal refusal), []⟩
  | spent {x : Rat} (hdt : dt.isNegative = false) (running : i.processor.isHalted = false)
      (hsum : i.pacer.sum? dt = some (.finite x)) :
      Advances dt i
        (((fun _ ↦ (wholePart x).toNat) <$> Action.replicate (wholePart x).toNat turn)
          (i.withPending (.ofRat (x - wholePart x))))

theorem advances_advance (dt : Binary64) (i : Interpreter) : Advances dt i (advance dt i) := by
  cases hdt : dt.isNegative with
  | true =>
    rw [advance_of_isNegative hdt]
    exact .backwards hdt
  | false =>
    cases running : i.processor.isHalted with
    | true =>
      rw [advance_of_isHalted running hdt]
      exact .halted hdt running
    | false =>
      rw [advance_eq, if_neg (by simp [hdt]), Action.gets_bind, if_neg (by simp [running])]
      have haccrue : accrue dt i = ⟨{ i with pacer := (i.pacer.accrue dt).2 },
          (i.pacer.accrue dt).1.mapError .refusal, []⟩ := rfl
      cases hsum : i.pacer.sum? dt with
      | none =>
        rw [Pacer.accrue_of_none hsum] at haccrue
        rw [Action.bind_of_error (by rw [haccrue]; rfl), haccrue]
        exact .rateOutOfRange hdt running hsum
      | some y =>
        cases hy : y.toRat? with
        | none =>
          obtain ⟨refusal, hp⟩ := Pacer.accrue_of_not_finite hsum hy
          rw [hp] at haccrue
          rw [Action.bind_of_error (by rw [haccrue]; rfl), haccrue]
          exact .notFinite refusal hdt running hsum hy
        | some x =>
          obtain rfl : y = .finite x := by
            cases y with
            | finite z =>
              cases hy
              rfl
            | _ => cases hy
          rw [Pacer.accrue_of_finite hsum] at haccrue
          rw [Action.bind_of_ok (by rw [haccrue]; rfl), haccrue]
          exact .spent hdt running hsum

/-- At a clock rate that is out of range no time passes on a processor that runs. -/
theorem advance_of_rateOutOfRange (hdt : dt.isNegative = false)
    (running : i.processor.isHalted = false) (h : Binary64.ofInt? i.pacer.clockRate = none) :
    advance dt i = ⟨i, .error (.refusal .integerTooLarge), []⟩ := by
  have ho := advances_advance dt i
  generalize advance dt i = o at ho
  cases ho with
  | backwards hdt' => simp [hdt] at hdt'
  | halted _ halted => simp [running] at halted
  | rateOutOfRange _ _ _ => rfl
  | notFinite _ _ _ hsum _ => simp [Pacer.sum?, h] at hsum
  | spent _ _ hsum => simp [Pacer.sum?, h] at hsum

/-! ## Other commands -/

/-- In a new interpreter the clocks are as after a reset. -/
theorem resetPacer_new {s : Settings} {source : Source} (h : new s source = .ok i) :
    i.resetPacer = i := by
  obtain ⟨pacer, hpacer, rfl⟩ := eq_of_new h
  rw [resetPacer, Pacer.reset_of_ofRates hpacer]

/-- A time step leaves the rate of the clock as it is. -/
theorem clockRate_advance (dt : Binary64) (i : Interpreter) :
    (advance dt i).state.pacer.clockRate = i.pacer.clockRate := by
  obtain ⟨s, hs⟩ := i.exists_hasSettings
  have hadvance : (advance dt i).state.HasSettings s :=
    independent_hasSettings.hereditary.advance dt i hs
  exact Int.ofNat_inj.1 (hadvance.clockRate.trans hs.clockRate.symm)

/-- The time that a command hands over. -/
def time? (i : Interpreter) : Command → Option Binary64
  | .advance dt => some dt
  | .tick dt => if i.loaded then some dt else none
  | _ => none

/-- A command that sets both clocks to zero. -/
def Restarts (i : Interpreter) : Command → Prop
  | .load program font => (load program font i).result = .ok ()
  | .resetPacer => True
  | _ => False

/-- A command that hands over time makes a time step. -/
theorem perform_of_time? {c : Command} (h : i.time? c = some dt) :
    perform c i = (Reply.count <$> advance dt) i := by
  cases c with
  | advance dt' =>
    cases h
    rfl
  | tick dt' =>
    rw [time?] at h
    split at h
    · next hloaded =>
      cases h
      have htick : tick dt i = advance dt i := by
        rw [tick, Action.gets_bind, if_pos hloaded]
      rw [perform, Action.map_apply, Action.map_apply, htick]
    · cases h
  | _ => cases h

theorem perform_eq_error_iff {c : Command} (h : i.time? c = some dt) {e : Error} :
    (perform c i).result = .error e ↔ (advance dt i).result = .error e := by
  rw [perform_of_time? h, Action.result_map]
  cases (advance dt i).result with
  | error _ => simp [Except.map]
  | ok _ => simp [Except.map]

theorem perform_eq_count_iff {c : Command} (h : i.time? c = some dt) {count : Nat} :
    (perform c i).result = .ok (.count count) ↔ (advance dt i).result = .ok count := by
  rw [perform_of_time? h, Action.result_map]
  cases (advance dt i).result with
  | error _ => simp [Except.map]
  | ok _ => simp [Except.map]

/-- A command that restarts the clocks leaves them as they are at the beginning. -/
theorem pacer_perform_of_restarts {c : Command} (h : i.Restarts c) :
    (perform c i).state.pacer = i.pacer.reset := by
  cases c with
  | load program font =>
    rw [perform, Action.state_map]
    obtain ⟨e, hm⟩ | hm := i.machine.load_cases program font
    · rw [Restarts, load_of_error hm] at h
      cases h
    · rw [load_of_ok hm]
      rfl
  | resetPacer => rfl
  | _ => exact h.elim

/-- Neither the machine nor the processor keeps the time. -/
theorem pacer_perform {c : Command} (htime : i.time? c = none) (hc : ¬ i.Restarts c) :
    (perform c i).state.pacer = i.pacer := by
  have hask {α : Type} (reply : α → Reply) (x : Action Machine α) :
      (ask reply x i).state.pacer = i.pacer := by
    rw [state_ask]
    rfl
  have haside {c : Command} (hc : c.SparesStack) : (perform c i).state.pacer = i.pacer := by
    obtain ⟨y, hy, -⟩ := asideOfStack_perform hc
    rw [hy]
    rfl
  cases c with
  | load program font =>
    rw [perform, Action.state_map]
    obtain ⟨e, hm⟩ | hm := i.machine.load_cases program font
    · rw [load_of_error hm]
    · rw [Restarts, load_of_ok hm] at hc
      exact absurd rfl hc
  | loadMachine program font =>
    rw [perform, Action.state_map]
    rfl
  | step =>
    rw [perform, Action.state_map, step, Action.gets_bind]
    split
    · rfl
    · rfl
  | stepProcessor =>
    rw [perform, Action.state_map]
    rfl
  | runProcessor count =>
    have hstep : Preserves (fun j ↦ j.pacer = i.pacer)
        (do let _ ← Interpreter.stepProcessor : Action Interpreter Unit) :=
      Preserves.bind (fun j hj ↦ hj) fun _ ↦ .pure _
    exact ((hstep.replicate count).bind fun _ ↦ .pure _) i rfl
  | tick dt =>
    rw [time?] at htime
    split at htime
    · cases htime
    · next hloaded =>
      rw [perform, Action.state_map, tick, Action.gets_bind, if_neg hloaded]
      rfl
  | advance dt => cases htime
  | resetProcessor => rfl
  | resetPacer => exact absurd trivial hc
  | resetMachine => exact hask _ _
  | push address => exact hask _ _
  | pop => exact hask _ _
  | _ =>
    refine haside ?_
    exact trivial

end Interpreter

end ChipEight
