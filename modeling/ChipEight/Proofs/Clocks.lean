import ChipEight.Proofs.Commands
import Mathlib.Logic.Function.Iterate

/-!
# The two clocks stay together

Every instruction pays its share into the timers' account, and every tick is paid out of it, so that
ticks and account together are what the instructions have paid.  Each payment is settled before the
next one, in as many rounds as there are whole ticks in the account, and less than a tick is left.
It follows how many ticks there have been after any number of instructions, whatever the two rates
are and however the host cuts its time.
-/

namespace ChipEight

namespace Pacer

variable {p : Pacer}

/-- What has been paid has been spent on ticks, or is left and makes less than one. -/
structure InStep (p : Pacer) : Prop where
  paid : p.instructions * p.timerRate = p.ticks * p.clockRate + p.phase
  phase_lt : p.phase < p.clockRate

namespace InStep

theorem start {clockRate timerRate : Nat} (hc : 0 < clockRate) (ht : 0 < timerRate) :
    (start clockRate timerRate hc ht).InStep where
  paid := by simp [Pacer.start]
  phase_lt := hc

/-- The ticks are the whole ones among what has been paid. -/
theorem ticks_eq (h : p.InStep) : p.ticks = p.instructions * p.timerRate / p.clockRate := by
  rw [h.paid, Nat.mul_comm p.ticks, Nat.mul_add_div p.clockRate_pos, Nat.div_eq_of_lt h.phase_lt,
    Nat.add_zero]

/-- After whole seconds of instructions there have been whole seconds of ticks. -/
theorem ticks_of_seconds (h : p.InStep) {seconds : Nat}
    (hs : p.instructions = seconds * p.clockRate) : p.ticks = seconds * p.timerRate := by
  rw [h.ticks_eq, hs, Nat.mul_right_comm]
  exact Nat.mul_div_cancel _ p.clockRate_pos

end InStep

/-! ## Settling -/

/-- One round of settling: a tick is taken out of the account and made. -/
def makeTick (s : Pacer × Machine) : Pacer × Machine :=
  ({ s.1 with phase := s.1.phase - s.1.clockRate, ticks := s.1.ticks + 1 }, s.2.countDown)

/-- The clocks with an instruction's share in the account. -/
def credit (p : Pacer) : Pacer := { p with phase := p.phase + p.timerRate }

theorem phase_makeTick (count : Nat) (s : Pacer × Machine) :
    (makeTick^[count] s).1.phase = s.1.phase - count * s.1.clockRate := by
  induction count generalizing s with
  | zero => simp
  | succ count ih =>
    rw [Function.iterate_succ_apply, ih]
    simp only [makeTick]
    rw [Nat.succ_mul]
    omega

/-- Settling takes as many rounds as there are whole ticks in the account. -/
theorem settle_eq_iterate (p : Pacer) (machine : Machine) :
    p.settle machine = makeTick^[p.phase / p.clockRate] (p, machine) := by
  fun_induction settle p machine with
  | case1 p machine h ih =>
    rw [Nat.div_eq_sub_div p.clockRate_pos h, Function.iterate_succ_apply]
    exact ih
  | case2 p machine h =>
    rw [Nat.div_eq_of_lt (Nat.lt_of_not_le h)]
    rfl

/-- Before each round of settling there is a tick in the account, and behind the last one there is
none. -/
theorem settle_rounds (p : Pacer) (machine : Machine) :
    let rounds := p.phase / p.clockRate
    (∀ k < rounds, p.clockRate ≤ (makeTick^[k] (p, machine)).1.phase) ∧
      (makeTick^[rounds] (p, machine)).1.phase < p.clockRate := by
  have hdiv := Nat.div_add_mod' p.phase p.clockRate
  have hmod := Nat.mod_lt p.phase p.clockRate_pos
  refine ⟨fun k hk ↦ ?_, ?_⟩
  · have hle : (k + 1) * p.clockRate ≤ p.phase / p.clockRate * p.clockRate :=
      Nat.mul_le_mul_right _ hk
    rw [Nat.succ_mul] at hle
    rw [phase_makeTick]
    change p.clockRate ≤ p.phase - k * p.clockRate
    omega
  · rw [phase_makeTick]
    change p.phase - p.phase / p.clockRate * p.clockRate < p.clockRate
    omega

/-- An instruction that is counted and pays keeps the clocks in step. -/
theorem InStep.payTimers (h : p.InStep) (machine : Machine) :
    (Pacer.payTimers { p with instructions := p.instructions + 1 } machine).1.InStep := by
  rw [Pacer.payTimers, settle_eq]
  have hdiv := Nat.div_add_mod' (p.phase + p.timerRate) p.clockRate
  constructor
  case paid =>
    simp only [Nat.add_mul, Nat.one_mul, h.paid]
    omega
  case phase_lt => exact Nat.mod_lt _ p.clockRate_pos

/-- The account of pending time is no matter of the timers. -/
theorem InStep.pending (h : p.InStep) (x : Binary64) : InStep { p with pending := x } where
  paid := h.paid
  phase_lt := h.phase_lt

end Pacer

namespace Interpreter

open ChipEight.Action (Preserves)

variable {i : Interpreter} {s : Settings}

/-- The interpreter with another account of pending time. -/
def withPending (i : Interpreter) (x : Binary64) : Interpreter :=
  { i with pacer := { i.pacer with pending := x } }

/-- Adding time changes the account of pending time alone. -/
theorem state_accrue (dt : Binary64) (i : Interpreter) :
    ∃ x, (accrue dt i).state = i.withPending x := by
  suffices h : ∃ x, (i.pacer.accrue dt).2 = { i.pacer with pending := x } by
    obtain ⟨x, hx⟩ := h
    exact ⟨x, congrArg (fun p ↦ { i with pacer := p }) hx⟩
  delta Pacer.accrue
  split
  · exact ⟨i.pacer.pending, rfl⟩
  · split
    · exact ⟨_, rfl⟩
    · exact ⟨_, rfl⟩
    · exact ⟨_, rfl⟩
    · exact ⟨_, rfl⟩

/-- The interpreter is set up as the settings say. -/
structure HasSettings (s : Settings) (i : Interpreter) : Prop where
  clockRate : (i.pacer.clockRate : Int) = s.clockRate
  timerRate : (i.pacer.timerRate : Int) = s.timerRate
  debug : i.processor.debug = s.debug
  legacyStore : i.processor.legacyStore = s.legacyStore

/-- Every interpreter is set up in some way. -/
theorem exists_hasSettings (i : Interpreter) : ∃ s, i.HasSettings s :=
  ⟨{ clockRate := i.pacer.clockRate, timerRate := i.pacer.timerRate, debug := i.processor.debug,
     legacyStore := i.processor.legacyStore }, rfl, rfl, rfl, rfl⟩

/-- Both clocks are set up at rates that are positive. -/
theorem new_of_pos (hc : 0 < s.clockRate) (ht : 0 < s.timerRate) (source : Source) :
    ∃ i, new s source = .ok i := by
  rw [new, Pacer.ofRates, dif_pos ⟨hc, ht⟩]
  exact ⟨_, rfl⟩

/-- A new interpreter is set up as the settings say, and its clocks are in step. -/
theorem hasSettings_new {source : Source} (h : new s source = .ok i) :
    i.HasSettings s ∧ i.pacer.InStep := by
  obtain ⟨pacer, hp, rfl⟩ := eq_of_new h
  rw [Pacer.ofRates] at hp
  split at hp
  · next hpos =>
    cases hp
    refine ⟨⟨?_, ?_, rfl, rfl⟩, .start _ _⟩
    · exact Int.toNat_of_nonneg (Int.le_of_lt hpos.1)
    · exact Int.toNat_of_nonneg (Int.le_of_lt hpos.2)
  · cases hp

/-- The settings are never changed. -/
theorem independent_hasSettings : Independent (HasSettings s) where
  withMachine _ _ h := ⟨h.clockRate, h.timerRate, h.debug, h.legacyStore⟩
  stepProcessor i h := by
    have hkept := Processor.options_step i.processor
    exact ⟨h.clockRate, h.timerRate, hkept.1.trans h.debug, hkept.2.trans h.legacyStore⟩
  endTurn i h := by
    rw [endTurn, payTimers, Pacer.payTimers, Pacer.settle_eq]
    exact ⟨h.clockRate, h.timerRate, h.debug, h.legacyStore⟩
  accrue dt i h := by
    obtain ⟨x, hx⟩ := state_accrue dt i
    rw [hx]
    exact ⟨h.clockRate, h.timerRate, h.debug, h.legacyStore⟩
  resetProcessor _ h := ⟨h.clockRate, h.timerRate, h.debug, h.legacyStore⟩
  resetPacer _ h := ⟨h.clockRate, h.timerRate, h.debug, h.legacyStore⟩
  loaded _ h := ⟨h.clockRate, h.timerRate, h.debug, h.legacyStore⟩

/-- The clocks never get out of step. -/
theorem independent_inStep : Independent fun i ↦ i.pacer.InStep where
  withMachine _ _ h := h
  stepProcessor _ h := h
  endTurn i h := h.payTimers i.machine
  accrue dt i h := by
    obtain ⟨x, hx⟩ := state_accrue dt i
    rw [hx]
    exact h.pending x
  resetProcessor _ h := h
  resetPacer i _ := .start i.pacer.clockRate_pos i.pacer.timerRate_pos
  loaded _ h := h

/-- While a time step is going on, none of its instructions is counted. -/
theorem instructions_partway (dt : Binary64) (turns : Nat) (i : Interpreter) :
    (partway dt turns i).state.interpreter.pacer.instructions = i.pacer.instructions := by
  have hstep : Preserves (fun j ↦ j.pacer.instructions = i.pacer.instructions) stepProcessor :=
    fun _ h ↦ h
  have hpay : ∀ j : Interpreter, j.pacer.instructions = i.pacer.instructions →
      j.payTimers.pacer.instructions = i.pacer.instructions := by
    intro j h
    rw [payTimers, Pacer.payTimers, Pacer.settle_eq]
    exact h
  have hturn : Preserves (fun b ↦ b.interpreter.pacer.instructions = i.pacer.instructions)
      Batch.turn := by
    refine Preserves.bind (hstep.on (fun _ h ↦ h) fun _ _ _ h ↦ h) fun _ ↦ ?_
    refine Preserves.bind (fun _ h ↦ h) fun _ ↦ ?_
    exact (Preserves.modify hpay).on (fun _ h ↦ h) fun _ _ _ h ↦ h
  obtain ⟨x, hx⟩ := state_accrue dt i
  refine hturn.replicate turns _ ?_
  rw [hx]
  rfl

/-- The two clocks never drift apart.  At any rates and whatever the host does, also when a fault
cuts a time step short, the instructions have paid for the ticks that have been made, and for less
than one more, so that the ticks follow from the instructions.  In the middle of a time step this
holds when the instructions of the step, which are not counted yet, are added to the others, and the
next instruction is settled in as many rounds as there are whole ticks in the account. -/
theorem clocks_never_drift (hc : 0 < s.clockRate) (ht : 0 < s.timerRate) (source : Source) :
    ∃ i, new s source = .ok i ∧ ∀ commands : List Command,
      let p := (performAll commands i).pacer
      p.clockRate = s.clockRate ∧ p.timerRate = s.timerRate ∧
      p.instructions * p.timerRate = p.ticks * p.clockRate + p.phase ∧ p.phase < p.clockRate ∧
      p.ticks = p.instructions * p.timerRate / p.clockRate ∧
      (∀ m, p.instructions = m * p.clockRate → p.ticks = m * p.timerRate) ∧
      ∀ (dt : Binary64) (turns : Nat),
        let b := (partway dt turns (performAll commands i)).state
        let q := b.interpreter.pacer
        q.clockRate = s.clockRate ∧ q.timerRate = s.timerRate ∧ q.instructions = p.instructions ∧
        (q.instructions + b.executed) * q.timerRate = q.ticks * q.clockRate + q.phase ∧
        q.phase < q.clockRate ∧
        ∀ machine,
          let round := fun k ↦ Pacer.makeTick^[k] (q.credit, machine)
          let rounds := (q.phase + q.timerRate) / q.clockRate
          (∀ k < rounds, q.clockRate ≤ (round k).1.phase) ∧
            (round rounds).1.phase < q.clockRate ∧ q.payTimers machine = round rounds := by
  obtain ⟨i, hi⟩ := new_of_pos hc ht source
  obtain ⟨hsettings, hstart⟩ := hasSettings_new hi
  refine ⟨i, hi, fun commands ↦ ?_⟩
  have hs : (performAll commands i).HasSettings s :=
    independent_hasSettings.performAll hsettings commands
  have h : (performAll commands i).pacer.InStep :=
    independent_inStep.performAll (P := fun i ↦ i.pacer.InStep) hstart commands
  refine ⟨hs.clockRate, hs.timerRate, h.paid, h.phase_lt, h.ticks_eq, fun m ↦ h.ticks_of_seconds,
    fun dt turns ↦ ?_⟩
  have hs' : (partway dt turns (performAll commands i)).state.close.HasSettings s :=
    independent_hasSettings.partway hs dt turns
  have h' : (partway dt turns (performAll commands i)).state.close.pacer.InStep :=
    independent_inStep.partway (P := fun i ↦ i.pacer.InStep) h dt turns
  refine ⟨hs'.clockRate, hs'.timerRate, instructions_partway dt turns _, h'.paid, h'.phase_lt,
    fun machine ↦ ?_⟩
  obtain ⟨hbefore, hafter⟩ := Pacer.settle_rounds (Pacer.credit _) machine
  exact ⟨hbefore, hafter, Pacer.settle_eq_iterate (Pacer.credit _) machine⟩

/-- An interpreter whose timers are faster than its clock. -/
def sevenToSixty : Interpreter :=
  ⟨.initial default false false, .start 7 60 (by decide) (by decide), false⟩

/-- A program of five instructions, a time step in the middle of which it runs into the empty memory
behind them, and requests that the clocks do not count. -/
def fiveClears : List Command :=
  [.load [0x00, 0xE0, 0x00, 0xE0, 0x00, 0xE0, 0x00, 0xE0, 0x00, 0xE0] builtInFont,
    .advance (.finite (1 / 2)), .step, .advance (.finite (-1)), .advance (.finite (1 / 2))]

/-- Four instructions are counted, of which the last one stands in the time step that a fault has
ended.  They have made thirty-four ticks, and two sevenths of a tick are left.  In the middle of the
first time step, behind two instructions that are not counted yet, there have been seventeen. -/
theorem clocks_seven_to_sixty :
    let p := (performAll fiveClears sevenToSixty).pacer
    let b := (partway (.finite (1 / 2)) 2 (performAll (fiveClears.take 1) sevenToSixty)).state
    let q := b.interpreter.pacer
    (performAll fiveClears sevenToSixty).processor.isHalted = true ∧
      p.instructions = 4 ∧ p.ticks = 34 ∧ p.phase = 2 ∧
      p.instructions * 60 = p.ticks * 7 + p.phase ∧ p.ticks = p.instructions * 60 / 7 ∧
      q.instructions = 0 ∧ b.executed = 2 ∧ q.ticks = 17 ∧ q.phase = 1 ∧
      (q.instructions + b.executed) * 60 = q.ticks * 7 + q.phase := by
  have hnew : new { clockRate := 7, timerRate := 60 } default = .ok sevenToSixty := rfl
  obtain ⟨i, hi, hall⟩ := clocks_never_drift (s := { clockRate := 7, timerRate := 60 })
    (by decide) (by decide) default
  obtain rfl : sevenToSixty = i := Except.ok.inj (hnew.symm.trans hi)
  have hcounted :
      let j := performAll fiveClears sevenToSixty
      j.processor.isHalted = true ∧ j.pacer.instructions = 4 ∧ j.pacer.ticks = 34 ∧
        j.pacer.phase = 2 := by
    decide +kernel
  have hpartly :
      let b := (partway (.finite (1 / 2)) 2 (performAll (fiveClears.take 1) sevenToSixty)).state
      let q := b.interpreter.pacer
      q.instructions = 0 ∧ b.executed = 2 ∧ q.ticks = 17 ∧ q.phase = 1 := by
    decide +kernel
  obtain ⟨hclock, htimer, hpaid, -, hticks, -, -⟩ := hall fiveClears
  obtain ⟨-, -, -, -, -, -, hwithin⟩ := hall (fiveClears.take 1)
  obtain ⟨hclock', htimer', -, hpaid', -⟩ := hwithin (.finite (1 / 2)) 2
  -- From here on the two states matter only for what is known of them.
  generalize (partway _ _ _).state = b at *
  generalize performAll fiveClears sevenToSixty = j at *
  rw [Int.ofNat_inj.1 hclock, Int.ofNat_inj.1 htimer] at hpaid hticks
  rw [Int.ofNat_inj.1 hclock', Int.ofNat_inj.1 htimer'] at hpaid'
  obtain ⟨hhalted, hinstructions, hcount, hphase⟩ := hcounted
  obtain ⟨hnone, hexecuted, hcount', hphase'⟩ := hpartly
  exact ⟨hhalted, hinstructions, hcount, hphase, hpaid, hticks, hnone, hexecuted, hcount', hphase',
    hpaid'⟩

end Interpreter

end ChipEight
