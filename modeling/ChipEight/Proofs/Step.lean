import ChipEight.Proofs.Execution

/-!
# One step of the processor

A processor that is not halted stops at a fault, passes over an unknown word, or carries out the
instruction at its program counter.  `Processor.Ends` says what it looks like afterwards in each of
these cases and which notes it writes, `Processor.Steps` the same without the notes, and `ends_step`
that there are no others: what holds of every step is shown by cases on it, and no statement about
steps looks into `step` again.
-/

namespace ChipEight

open Manual

namespace Machine

variable {m : Machine}

/-- The word at the program counter lies in memory. -/
def HasWord (m : Machine) : Prop := 0 ≤ m.pc ∧ m.pc + 1 < memorySize

/-- The word at the program counter. -/
def word (m : Machine) : Word := m.memory.wordAt m.pc.toNat

theorem fetch_of_hasWord (h : m.HasWord) :
    fetch m = ⟨{ m with pc := m.pc + 2 }, .ok m.word, []⟩ := by
  obtain ⟨hlow, hhigh⟩ := h
  have hm : (memorySize : Int) = 4096 := rfl
  have hread := m.read_of_inside ⟨hlow, show m.pc < memorySize by omega⟩
  have hread' := m.read_of_inside ⟨show 0 ≤ m.pc + 1 by omega, hhigh⟩
  rw [Int.toNat_add hlow (by decide)] at hread'
  have hmove : m.moveBy 2 = m.jumpTo (m.pc + 2) := moveBy_eq_jumpTo (by omega) (by omega)
  rw [fetch, Action.gets_bind, Action.bind_of_ok (congrArg Outcome.result hread), hread,
    Action.gets_bind, Action.bind_of_ok (congrArg Outcome.result hread'), hread',
    Action.bind_of_ok rfl, Action.modify_apply, hmove]
  rfl

/-- The first byte of the word lies outside of memory. -/
theorem fetch_of_outside (h : m.pc < 0 ∨ memorySize ≤ m.pc) :
    fetch m = ⟨m, .error (.ofCause (.outOfBounds .memory m.pc)), []⟩ := by
  have hread := m.read_of_outside (show ¬ (0 ≤ m.pc ∧ m.pc < memorySize) by omega)
  rw [fetch, Action.gets_bind, Action.bind_of_error (congrArg Outcome.result hread), hread]

/-- The first byte of the word is the last one of memory. -/
theorem fetch_of_straddling (h : m.pc + 1 = memorySize) :
    fetch m = ⟨m, .error (.ofCause (.outOfBounds .memory memorySize)), []⟩ := by
  have hm : (memorySize : Int) = 4096 := rfl
  have hread := m.read_of_inside (show 0 ≤ m.pc ∧ m.pc < memorySize by omega)
  have hread' := m.read_of_outside (show ¬ (0 ≤ m.pc + 1 ∧ m.pc + 1 < memorySize) by omega)
  rw [h] at hread'
  rw [fetch, Action.gets_bind, Action.bind_of_ok (congrArg Outcome.result hread), hread,
    Action.gets_bind, h, Action.bind_of_error (congrArg Outcome.result hread'), hread']
  rfl

/-- Without a word in memory the program counter is outside of memory or at its last byte. -/
theorem not_hasWord_iff : ¬ m.HasWord ↔ (m.pc < 0 ∨ memorySize ≤ m.pc) ∨ m.pc + 1 = memorySize := by
  unfold HasWord
  omega

/-- Only a word in memory can be fetched. -/
theorem fetch_eq_ok_iff {w : Word} :
    (fetch m).result = .ok w ↔ m.HasWord ∧ w = m.word := by
  by_cases hw : m.HasWord
  · simp [fetch_of_hasWord hw, hw, eq_comm]
  · obtain ho | hs := not_hasWord_iff.1 hw
    · simp [fetch_of_outside ho, hw]
    · simp [fetch_of_straddling hs, hw]

/-- Where the program counter is after an attempt to fetch a word. -/
def nextPc (m : Machine) : Int := (fetch m).state.pc

theorem nextPc_of_hasWord (h : m.HasWord) : m.nextPc = m.pc + 2 := by
  rw [nextPc, fetch_of_hasWord h]

theorem nextPc_of_not_hasWord (h : ¬ m.HasWord) : m.nextPc = m.pc := by
  obtain ho | hs := not_hasWord_iff.1 h
  · rw [nextPc, fetch_of_outside ho]
  · rw [nextPc, fetch_of_straddling hs]

/-- A fetch moves the program counter and changes nothing else. -/
theorem state_fetch (m : Machine) : (fetch m).state = { m with pc := m.nextPc } := by
  by_cases hw : m.HasWord
  · rw [nextPc, fetch_of_hasWord hw]
  · obtain ho | hs := not_hasWord_iff.1 hw
    · rw [nextPc, fetch_of_outside ho]
    · rw [nextPc, fetch_of_straddling hs]

/-- Whether there is a word is a matter of the program counter alone. -/
theorem hasWord_congr {n : Machine} (hpc : n.pc = m.pc) : n.HasWord ↔ m.HasWord := by
  rw [HasWord, hpc, HasWord]

theorem word_congr {n : Machine} (hmemory : n.memory = m.memory) (hpc : n.pc = m.pc) :
    n.word = m.word := by
  rw [word, hmemory, hpc, word]

theorem nextPc_congr {n : Machine} (hpc : n.pc = m.pc) : n.nextPc = m.nextPc := by
  by_cases hw : m.HasWord
  · rw [nextPc_of_hasWord hw, nextPc_of_hasWord ((hasWord_congr hpc).2 hw), hpc]
  · rw [nextPc_of_not_hasWord hw, nextPc_of_not_hasWord (mt (hasWord_congr hpc).1 hw), hpc]

end Machine

namespace Processor

variable {p q : Processor} {i : Instruction} {cause : Cause} {log : List Note}

/-- Why a processor that is not halted stops instead of carrying out an instruction. -/
inductive Stops (p : Processor) : Cause → Prop
  /-- The program counter is outside of memory. -/
  | outside :
      p.machine.pc < 0 ∨ memorySize ≤ p.machine.pc →
      Stops p (.outOfBounds .memory p.machine.pc)
  /-- The word begins with the last byte of memory. -/
  | straddling : p.machine.pc + 1 = memorySize → Stops p (.outOfBounds .memory memorySize)
  /-- The word stands for no instruction. -/
  | unknown :
      p.machine.HasWord → Instruction.ofWord? p.machine.word = none → p.debug = false →
      Stops p (.unknownOpcode p.machine.word.toNat)
  /-- The instruction meets an obstacle. -/
  | obstacle {i : Instruction} {cause : Cause} :
      p.machine.HasWord → Instruction.ofWord? p.machine.word = some i →
      Obstacle p.machine.view i cause →
      Stops p cause

/-- Without a word in memory there is nothing to carry out. -/
theorem exists_stops_of_not_hasWord (h : ¬ p.machine.HasWord) : ∃ cause, Stops p cause := by
  obtain ho | hs := Machine.not_hasWord_iff.1 h
  · exact ⟨_, .outside ho⟩
  · exact ⟨_, .straddling hs⟩

/-- What stops a processor stops another one with the same code at the same place, as far as unknown
words and obstacles stop that one too. -/
theorem Stops.congr (h : Stops p cause) (hmemory : q.machine.memory = p.machine.memory)
    (hpc : q.machine.pc = p.machine.pc)
    (hunknown : p.machine.HasWord → Instruction.ofWord? p.machine.word = none →
      p.debug = false → q.debug = false)
    (hobstacle : ∀ i, p.machine.HasWord → Instruction.ofWord? p.machine.word = some i →
      Obstacle p.machine.view i cause → Obstacle q.machine.view i cause) :
    Stops q cause := by
  have hiff : q.machine.HasWord ↔ p.machine.HasWord := Machine.hasWord_congr hpc
  have hword : q.machine.word = p.machine.word := Machine.word_congr hmemory hpc
  cases h with
  | outside ho =>
    rw [← hpc] at ho ⊢
    exact .outside ho
  | straddling hs => exact .straddling (hpc ▸ hs)
  | unknown hw hi hd =>
    rw [← hword]
    exact .unknown (hiff.2 hw) (hword ▸ hi) (hunknown hw hi hd)
  | obstacle hw hi ho => exact .obstacle (hiff.2 hw) (hword ▸ hi) (hobstacle _ hw hi ho)

/-- The processor stopped by a fault. -/
def stopped (p : Processor) (cause : Cause) : Processor :=
  { p with
    machine := { p.machine with pc := p.machine.nextPc, busy := false }
    isHalted := true
    fault := some ⟨cause, some p.machine.pc⟩
    keys := p.machine.keypad.toList }

/-- The processor behind a word that it has passed over. -/
def passed (p : Processor) : Processor :=
  { p with
    machine := { p.machine with pc := p.machine.pc + 2, busy := false }
    keys := p.machine.keypad.toList }

/-- The processor behind an instruction that it has carried out. -/
def carriedOut (p : Processor) (i : Instruction) (m : Machine) : Processor :=
  { p with machine := m, source := draws i p.source, keys := p.machine.keypad.toList }

/-- What a step leads to, and its answer. -/
inductive Steps (p : Processor) : Processor → Except Error (Option Instruction) → Prop
  | halted : p.isHalted = true → Steps p p (.ok none)
  | stopped {cause : Cause} :
      p.isHalted = false → Stops p cause →
      Steps p (p.stopped cause) (.error (.fault ⟨cause, some p.machine.pc⟩))
  | passed :
      p.isHalted = false → p.machine.HasWord → Instruction.ofWord? p.machine.word = none →
      p.debug = true →
      Steps p p.passed (.ok none)
  | carriedOut {i : Instruction} {m : Machine} :
      p.isHalted = false → p.machine.HasWord → Instruction.ofWord? p.machine.word = some i →
      (∀ cause, ¬ Obstacle p.machine.view i cause) →
      m.view = after p.legacyStore i p.source.draw.1 p.machine.view →
      Steps p (p.carriedOut i m) (.ok (some i))

/-- The instruction at the program counter, if the word there stands for one. -/
def instruction? (p : Processor) : Option Instruction :=
  match (Machine.fetch p.machine).result with
  | .ok w => Instruction.ofWord? w
  | .error _ => none

/-- The note of an instruction, which is written before it is carried out. -/
def dispatchNotes (p : Processor) : List Note :=
  p.instruction?.toList.map (.dispatched p.machine.pc)

theorem instruction?_of_hasWord (hw : p.machine.HasWord) :
    p.instruction? = Instruction.ofWord? p.machine.word := by
  rw [instruction?, Machine.fetch_of_hasWord hw]

theorem instruction?_of_not_hasWord (hw : ¬ p.machine.HasWord) : p.instruction? = none := by
  obtain ho | hs := Machine.not_hasWord_iff.1 hw
  · rw [instruction?, Machine.fetch_of_outside ho]
  · rw [instruction?, Machine.fetch_of_straddling hs]

/-- Which instruction it is depends on the memory and the program counter alone. -/
theorem instruction?_congr (hmemory : q.machine.memory = p.machine.memory)
    (hpc : q.machine.pc = p.machine.pc) : q.instruction? = p.instruction? := by
  have hiff : q.machine.HasWord ↔ p.machine.HasWord := Machine.hasWord_congr hpc
  by_cases hw : p.machine.HasWord
  · rw [instruction?_of_hasWord hw, instruction?_of_hasWord (hiff.2 hw),
      Machine.word_congr hmemory hpc]
  · rw [instruction?_of_not_hasWord hw, instruction?_of_not_hasWord (mt hiff.1 hw)]

theorem dispatchNotes_congr (hmemory : q.machine.memory = p.machine.memory)
    (hpc : q.machine.pc = p.machine.pc) : q.dispatchNotes = p.dispatchNotes := by
  rw [dispatchNotes, instruction?_congr hmemory hpc, hpc, dispatchNotes]

theorem dispatchNotes_of_none (h : p.instruction? = none) : p.dispatchNotes = [] := by
  rw [dispatchNotes, h]
  rfl

theorem dispatchNotes_of_some (h : p.instruction? = some i) :
    p.dispatchNotes = [.dispatched p.machine.pc i] := by
  rw [dispatchNotes, h]
  rfl

/-- The outcome of a step that ends at a fault.  The notes tell which instruction it was, if any,
and why it stopped. -/
def faulted (p : Processor) (cause : Cause) : Outcome Processor (Option Instruction) :=
  ⟨p.stopped cause, .error (.fault ⟨cause, some p.machine.pc⟩),
    p.dispatchNotes ++ [.halted ⟨cause, some p.machine.pc⟩]⟩

/-- How a step can end, with the notes that it writes. -/
inductive Ends (p : Processor) : Outcome Processor (Option Instruction) → Prop
  | halted : p.isHalted = true → Ends p ⟨p, .ok none, []⟩
  | stopped {cause : Cause} : p.isHalted = false → Stops p cause → Ends p (p.faulted cause)
  | passed :
      p.isHalted = false → p.machine.HasWord → Instruction.ofWord? p.machine.word = none →
      p.debug = true →
      Ends p ⟨p.passed, .ok none,
        [.skipped ⟨.unknownOpcode p.machine.word.toNat, some p.machine.pc⟩]⟩
  | carriedOut {i : Instruction} {m : Machine} :
      p.isHalted = false → p.machine.HasWord → Instruction.ofWord? p.machine.word = some i →
      (∀ cause, ¬ Obstacle p.machine.view i cause) →
      m.view = after p.legacyStore i p.source.draw.1 p.machine.view →
      Ends p ⟨p.carriedOut i m, .ok (some i), [.dispatched p.machine.pc i]⟩

/-! ## The cycle -/

/-- The processor when it begins with an instruction. -/
def started (p : Processor) : Processor :=
  { p with machine := { p.machine with busy := true } }

theorem cycle_of_fetch_error (address : Int)
    (h : Machine.fetch p.started.machine = ⟨p.started.machine, .error (.ofCause cause), []⟩) :
    cycle address p.started =
      ⟨{ p.started with keys := p.machine.keypad.toList }, .error (.ofCause cause), []⟩ :=
  onMachine_bind_of_error (p := { p.started with keys := p.machine.keypad.toList }) h _

/-- What a cycle does with the word that it has fetched. -/
theorem cycle_of_hasWord (address : Int) (hw : p.machine.HasWord) :
    cycle address p.started =
      (match Instruction.ofWord? p.machine.word with
        | none => unknownWord p.machine.word address
        | some i => do
          Action.note (.dispatched address i)
          execute i
          pure (some i)) p.fetched :=
  onMachine_bind_of_ok (p := { p.started with keys := p.machine.keypad.toList })
    (Machine.fetch_of_hasWord (m := p.started.machine) hw) _

theorem cycle_of_unknown (address : Int) (hw : p.machine.HasWord)
    (hi : Instruction.ofWord? p.machine.word = none) :
    cycle address p.started = unknownWord p.machine.word address p.fetched := by
  rw [cycle_of_hasWord address hw, hi]

theorem cycle_of_error (address : Int) {e : Error} (hw : p.machine.HasWord)
    (hi : Instruction.ofWord? p.machine.word = some i)
    (he : execute i p.fetched = ⟨q, .error e, []⟩) :
    cycle address p.started = ⟨q, .error e, [.dispatched address i]⟩ := by
  rw [cycle_of_hasWord address hw, hi]
  simp only [Action.bind_of_ok (x := Action.note _) rfl, Action.note_apply,
    Action.bind_of_error (x := execute i) (s := p.fetched) (congrArg Outcome.result he), he]
  rfl

theorem cycle_of_ok (address : Int) (hw : p.machine.HasWord)
    (hi : Instruction.ofWord? p.machine.word = some i)
    (he : execute i p.fetched = ⟨q, .ok (), []⟩) :
    cycle address p.started = ⟨q, .ok (some i), [.dispatched address i]⟩ := by
  rw [cycle_of_hasWord address hw, hi]
  simp only [Action.bind_of_ok (x := Action.note _) rfl, Action.note_apply,
    Action.bind_of_ok (x := execute i) (s := p.fetched) (congrArg Outcome.result he), he]
  rfl

/-! ## The step -/

theorem step_of_isHalted (h : p.isHalted = true) : step p = ⟨p, .ok none, []⟩ := by
  rw [step, Action.gets_bind, if_pos h]
  rfl

/-- A step begins and ends a cycle. -/
theorem step_of_not_isHalted (h : p.isHalted = false) :
    step p = (((cycle p.machine.pc).recover (halt p.machine.pc)).afterwards fun p ↦
      { p with machine := { p.machine with busy := false } }) p.started := by
  rw [step, Action.gets_bind, if_neg (by simp [h])]
  rfl

/-- A cycle that fails at a fault halts the processor. -/
theorem step_of_cycle_error {address : Option Int} (h : p.isHalted = false)
    (hc : cycle p.machine.pc p.started = ⟨q, .error (.fault ⟨cause, address⟩), log⟩)
    (ha : address.or (some p.machine.pc) = some p.machine.pc) :
    step p =
      ⟨{ q with
          machine := { q.machine with busy := false }
          isHalted := true
          fault := some ⟨cause, some p.machine.pc⟩ },
        .error (.fault ⟨cause, some p.machine.pc⟩),
        log ++ [.halted ⟨cause, some p.machine.pc⟩]⟩ := by
  have hr := Action.recover_of_error (halt p.machine.pc) (congrArg Outcome.result hc)
  rw [step_of_not_isHalted h, Action.afterwards_apply, hr, hc]
  simp only [halt, ha]
  rfl

theorem step_of_cycle_ok {answer : Option Instruction} (h : p.isHalted = false)
    (hc : cycle p.machine.pc p.started = ⟨q, .ok answer, log⟩) :
    step p = ⟨{ q with machine := { q.machine with busy := false } }, .ok answer, log⟩ := by
  have hr := Action.recover_of_ok (halt p.machine.pc) (congrArg Outcome.result hc)
  rw [step_of_not_isHalted h, Action.afterwards_apply, hr, hc]

/-- Whatever stops a processor halts it, and no more. -/
theorem step_eq_of_stops (h : p.isHalted = false) (hs : Stops p cause) :
    step p = p.faulted cause := by
  cases hs with
  | outside ho =>
    have hw : ¬ p.machine.HasWord := Machine.not_hasWord_iff.2 (.inl ho)
    have hf := Machine.fetch_of_outside (m := p.started.machine) ho
    rw [faulted, stopped, Machine.nextPc_of_not_hasWord hw,
      dispatchNotes_of_none (instruction?_of_not_hasWord hw)]
    exact step_of_cycle_error h (cycle_of_fetch_error _ hf) rfl
  | straddling hs =>
    have hw : ¬ p.machine.HasWord := Machine.not_hasWord_iff.2 (.inr hs)
    have hf := Machine.fetch_of_straddling (m := p.started.machine) hs
    rw [faulted, stopped, Machine.nextPc_of_not_hasWord hw,
      dispatchNotes_of_none (instruction?_of_not_hasWord hw)]
    exact step_of_cycle_error h (cycle_of_fetch_error _ hf) rfl
  | unknown hw hi hd =>
    have hc : cycle p.machine.pc p.started =
        ⟨p.fetched,
          .error (.fault ⟨.unknownOpcode p.machine.word.toNat, some p.machine.pc⟩), []⟩ := by
      rw [cycle_of_unknown _ hw hi, unknownWord, Action.gets_bind, if_neg (by simp [fetched, hd])]
      rfl
    rw [faulted, stopped, Machine.nextPc_of_hasWord hw,
      dispatchNotes_of_none ((instruction?_of_hasWord hw).trans hi)]
    exact step_of_cycle_error h hc rfl
  | obstacle hw hi ho =>
    have hc := cycle_of_error p.machine.pc hw hi (execute_of_obstacle ho)
    rw [faulted, stopped, Machine.nextPc_of_hasWord hw,
      dispatchNotes_of_some ((instruction?_of_hasWord hw).trans hi)]
    exact step_of_cycle_error h hc rfl

theorem step_of_stops (h : p.isHalted = false) (hs : Stops p cause) :
    ∃ log, step p = ⟨p.stopped cause, .error (.fault ⟨cause, some p.machine.pc⟩), log⟩ :=
  ⟨_, step_eq_of_stops h hs⟩

theorem step_eq_of_skipped (h : p.isHalted = false) (hw : p.machine.HasWord)
    (hi : Instruction.ofWord? p.machine.word = none) (hd : p.debug = true) :
    step p = ⟨p.passed, .ok none,
      [.skipped ⟨.unknownOpcode p.machine.word.toNat, some p.machine.pc⟩]⟩ := by
  have hc : cycle p.machine.pc p.started =
      ⟨p.fetched, .ok none,
        [.skipped ⟨.unknownOpcode p.machine.word.toNat, some p.machine.pc⟩]⟩ := by
    rw [cycle_of_unknown _ hw hi, unknownWord, Action.gets_bind, if_pos (by simp [fetched, hd])]
    rfl
  exact step_of_cycle_ok h hc

theorem step_eq_of_clear (h : p.isHalted = false) (hw : p.machine.HasWord)
    (hi : Instruction.ofWord? p.machine.word = some i)
    (clear : ∀ cause, ¬ Obstacle p.machine.view i cause) :
    ∃ m, step p = ⟨p.carriedOut i m, .ok (some i), [.dispatched p.machine.pc i]⟩ ∧
      m.view = after p.legacyStore i p.source.draw.1 p.machine.view := by
  obtain ⟨m, he, hm⟩ := execute_of_clear hw.1 hw.2 clear
  refine ⟨{ m with busy := false }, step_of_cycle_ok h (cycle_of_ok _ hw hi he), ?_⟩
  change { m.view with busy := false } = _
  rw [hm, ← busy_after p.legacyStore i p.source.draw.1 p.machine.view]

theorem step_of_clear (h : p.isHalted = false) (hw : p.machine.HasWord)
    (hi : Instruction.ofWord? p.machine.word = some i)
    (clear : ∀ cause, ¬ Obstacle p.machine.view i cause) :
    ∃ m log, step p = ⟨p.carriedOut i m, .ok (some i), log⟩ ∧
      m.view = after p.legacyStore i p.source.draw.1 p.machine.view := by
  obtain ⟨m, hstep, hm⟩ := step_eq_of_clear h hw hi clear
  exact ⟨m, _, hstep, hm⟩

theorem ends_step (p : Processor) : Ends p (step p) := by
  cases h : p.isHalted with
  | true =>
    rw [step_of_isHalted h]
    exact .halted h
  | false =>
    by_cases hs : ∃ cause, Stops p cause
    · obtain ⟨cause, hs⟩ := hs
      rw [step_eq_of_stops h hs]
      exact .stopped h hs
    · have hw : p.machine.HasWord := by
        by_contra hw
        exact hs (exists_stops_of_not_hasWord hw)
      cases hi : Instruction.ofWord? p.machine.word with
      | none =>
        have hd : p.debug = true := by
          by_contra hd
          exact hs ⟨_, .unknown hw hi (Bool.eq_false_of_not_eq_true hd)⟩
        rw [step_eq_of_skipped h hw hi hd]
        exact .passed h hw hi hd
      | some i =>
        have clear : ∀ cause, ¬ Obstacle p.machine.view i cause :=
          fun cause ho ↦ hs ⟨cause, .obstacle hw hi ho⟩
        obtain ⟨m, hstep, hm⟩ := step_eq_of_clear h hw hi clear
        rw [hstep]
        exact .carriedOut h hw hi clear hm

theorem steps_step (p : Processor) : Steps p (step p).state (step p).result := by
  have hends := ends_step p
  generalize step p = o at hends
  cases hends with
  | halted h => exact .halted h
  | stopped h hs => exact .stopped h hs
  | passed h hw hi hd => exact .passed h hw hi hd
  | carriedOut h hw hi clear hm => exact .carriedOut h hw hi clear hm

/-- A step changes none of the options. -/
theorem options_step (p : Processor) :
    (step p).state.debug = p.debug ∧ (step p).state.legacyStore = p.legacyStore := by
  have hsteps := steps_step p
  generalize (step p).state = q, (step p).result = answer at hsteps
  cases hsteps with
  | halted _ => exact ⟨rfl, rfl⟩
  | stopped _ _ => exact ⟨rfl, rfl⟩
  | passed _ _ _ _ => exact ⟨rfl, rfl⟩
  | carriedOut _ _ _ _ _ => exact ⟨rfl, rfl⟩

/-- A step that fails was stopped. -/
theorem stops_of_result_error {e : Error} (h : (step p).result = .error e) :
    p.isHalted = false ∧ ∃ cause, Stops p cause ∧ e = .fault ⟨cause, some p.machine.pc⟩ ∧
      (step p).state = p.stopped cause := by
  have hsteps := steps_step p
  rw [h] at hsteps
  generalize (step p).state = q at hsteps
  cases hsteps with
  | stopped running hs => exact ⟨running, _, hs, rfl, rfl⟩

end Processor

end ChipEight
