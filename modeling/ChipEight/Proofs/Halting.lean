import ChipEight.Proofs.Runs
import ChipEight.Proofs.Step

/-!
# Faults stop the processor cleanly

A step that fails leaves the machine as it was but for the program counter.  From then on nothing
that asks for instructions or hands over time has any effect, so that all stays as it was at the
fault but for the keys, which belong to the host, until the processor is reset or a program is
loaded.
-/

namespace ChipEight

/-- Commands that ask for instructions, hand over time or change the keys, and loads of a program
that is too large or of no font. -/
inductive Command.Quiet : Command → Prop
  | step : Quiet .step
  | stepProcessor : Quiet .stepProcessor
  | runProcessor (count : Nat) : Quiet (.runProcessor count)
  | tick (dt : Binary64) : Quiet (.tick dt)
  | advance (dt : Binary64) : Quiet (.advance dt)
  | setKey (key : Int) (down : Bool) : Quiet (.setKey key down)
  | setKeys (states : List Bool) : Quiet (.setKeys states)
  | releaseKeys : Quiet .releaseKeys
  | load {program font : Bytes} :
      font.length ≠ glyphCount * glyphSize ∨ maxProgramSize < program.length →
      Quiet (.load program font)

/-- A load of a program that is too large or of no font is refused, whatever the machine does. -/
theorem Machine.load_of_unfit {program font : Bytes}
    (h : font.length ≠ glyphCount * glyphSize ∨ maxProgramSize < program.length) (m : Machine) :
    ∃ e, load program font m = ⟨m, .error e, []⟩ := by
  cases hbusy : m.busy with
  | true => exact ⟨_, load_of_busy program font hbusy⟩
  | false =>
    by_cases hfont : font.length = glyphCount * glyphSize
    · exact ⟨_, load_of_too_large hbusy hfont (h.resolve_left (not_not.2 hfont))⟩
    · exact ⟨_, load_of_font program hbusy hfont⟩

namespace Interpreter

variable {i : Interpreter}

theorem advance_of_isNegative {dt : Binary64} (hdt : dt.isNegative = true) :
    advance dt i = ⟨i, .error (.refusal (.negativeTime dt)), []⟩ := by
  rw [advance, if_pos hdt]
  rfl

theorem state_load_of_unfit {program font : Bytes}
    (h : font.length ≠ glyphCount * glyphSize ∨ maxProgramSize < program.length) :
    (load program font i).state = i := by
  obtain ⟨e, hm⟩ := i.machine.load_of_unfit h
  rw [load_of_error hm]

/-! ## A processor that is halted -/

section Halted

variable (h : i.processor.isHalted = true)
include h

theorem stepProcessor_of_isHalted : stepProcessor i = ⟨i, .ok none, []⟩ := by
  rw [stepProcessor, onProcessor, Action.on_apply, Processor.step_of_isHalted h]

theorem step_of_isHalted : step i = ⟨i, .ok none, []⟩ := by
  rw [step, Action.gets_bind]
  split
  · exact stepProcessor_of_isHalted h
  · rfl

theorem runProcessor_of_isHalted (count : Nat) :
    perform (.runProcessor count) i = ⟨i, .ok (.count count), []⟩ := by
  have hx : (do let _ ← stepProcessor : Action Interpreter Unit) i = ⟨i, .ok (), []⟩ := by
    rw [Action.bind_of_ok (by rw [stepProcessor_of_isHalted h]), stepProcessor_of_isHalted h]
    rfl
  have hrun := Action.replicate_eq_self hx count
  rw [perform, Action.bind_of_ok (by rw [hrun]), hrun]
  rfl

/-- On a halted processor time that does not run backwards does not run at all. -/
theorem advance_of_isHalted {dt : Binary64} (hdt : dt.isNegative = false) :
    advance dt i = ⟨i, .ok 0, []⟩ := by
  rw [advance, if_neg (by simp [hdt]), Action.gets_bind, if_pos h]
  rfl

theorem state_advance_of_isHalted (dt : Binary64) : (advance dt i).state = i := by
  cases hdt : dt.isNegative with
  | true => rw [advance_of_isNegative hdt]
  | false => rw [advance_of_isHalted h hdt]

theorem tick_of_isHalted {dt : Binary64} (hdt : dt.isNegative = false) :
    tick dt i = ⟨i, .ok 0, []⟩ := by
  rw [tick, Action.gets_bind]
  split
  · exact advance_of_isHalted h hdt
  · rfl

theorem state_tick_of_isHalted (dt : Binary64) : (tick dt i).state = i := by
  rw [tick, Action.gets_bind]
  split
  · exact state_advance_of_isHalted h dt
  · rfl

/-- A quiet command changes at most the keys. -/
theorem perform_of_isHalted {c : Command} (hc : c.Quiet) :
    ∃ k, (perform c i).state = i.withKeypad k := by
  have unchanged {j : Interpreter} (hj : j = i) : ∃ k, j = i.withKeypad k :=
    ⟨i.machine.keypad, hj⟩
  cases hc with
  | step =>
    apply unchanged
    rw [perform, Action.state_map, step_of_isHalted h]
  | stepProcessor =>
    apply unchanged
    rw [perform, Action.state_map, stepProcessor_of_isHalted h]
  | runProcessor count =>
    apply unchanged
    rw [runProcessor_of_isHalted h count]
  | tick dt =>
    apply unchanged
    rw [perform, Action.state_map, state_tick_of_isHalted h dt]
  | advance dt =>
    apply unchanged
    rw [perform, Action.state_map, state_advance_of_isHalted h dt]
  | setKey key down => exact ⟨_, state_ask_onKeypad _ _ i⟩
  | setKeys states => exact ⟨_, state_ask_onKeypad _ _ i⟩
  | releaseKeys => exact ⟨_, state_ask_onKeypad _ _ i⟩
  | load hl =>
    apply unchanged
    rw [perform, Action.state_map, state_load_of_unfit hl]

/-- A run of quiet commands changes at most the keys. -/
theorem performAll_of_isHalted {commands : List Command} (quiet : ∀ c ∈ commands, c.Quiet) :
    ∃ k, performAll commands i = i.withKeypad k := by
  refine performAll_invariant (P := fun j ↦ ∃ k, j = i.withKeypad k) ?_ quiet
    ⟨i.machine.keypad, rfl⟩
  rintro c hc _ ⟨k, rfl⟩
  obtain ⟨l, hl⟩ := perform_of_isHalted (i := i.withKeypad k) h hc
  exact ⟨l, hl⟩

end Halted

/-- An accepted load ends the halt. -/
theorem isHalted_of_load {program font : Bytes}
    (h : (perform (.load program font) i).result = .ok .done) :
    (perform (.load program font) i).state.processor.isHalted = false := by
  obtain ⟨e, hm⟩ | hm := i.machine.load_cases program font
  · rw [perform, Action.result_map, load_of_error hm] at h
    cases h
  · rw [perform, Action.state_map, load_of_ok hm]
    rfl

/-! ## Faults -/

theorem stepProcessor_of_stops {cause : Cause} (h : i.processor.isHalted = false)
    (hs : i.processor.Stops cause) :
    ∃ log, stepProcessor i = ⟨{ i with processor := i.processor.stopped cause },
      .error (.fault ⟨cause, some i.processor.machine.pc⟩), log⟩ := by
  obtain ⟨log, hstep⟩ := Processor.step_of_stops h hs
  refine ⟨log, ?_⟩
  rw [stepProcessor, onProcessor, Action.on_apply, hstep]

/-- A fault is a clean stop.  It leaves everything as it was but for the program counter, and notes
itself and the keys.  However long the host then asks for instructions, hands over time or changes
the keys, nothing happens, until it resets the processor or loads a program. -/
theorem fault_stops_cleanly {i : Interpreter} {e : Error}
    (h : (stepProcessor i).result = .error e) :
    let p := i.processor
    let halted := (stepProcessor i).state
    (∃ cause, e = .fault ⟨cause, some p.machine.pc⟩ ∧
      halted = { i with processor := { p with
        machine := { p.machine with pc := p.machine.nextPc, busy := false }
        isHalted := true
        fault := some ⟨cause, some p.machine.pc⟩
        keys := p.machine.keypad.toList } }) ∧
    ∀ commands : List Command, (∀ c ∈ commands, c.Quiet) →
      let later := performAll commands halted
      (∃ k, later = halted.withKeypad k) ∧
      (perform .step later).result = .ok (.instruction none) ∧
      (perform .stepProcessor later).result = .ok (.instruction none) ∧
      (∀ dt, dt.isNegative = false →
        (perform (.advance dt) later).result = .ok (.count 0) ∧
        (perform (.tick dt) later).result = .ok (.count 0)) ∧
      (perform .resetProcessor later).state.processor.isHalted = false ∧
      ∀ program font, (perform (.load program font) later).result = .ok .done →
        (perform (.load program font) later).state.processor.isHalted = false := by
  intro p halted
  have hp : (Processor.step p).result = .error e := h
  obtain ⟨-, cause, -, rfl, hstopped⟩ := Processor.stops_of_result_error hp
  have hhalted : halted = { i with processor := p.stopped cause } :=
    congrArg (fun q ↦ { i with processor := q }) hstopped
  refine ⟨⟨cause, rfl, hhalted⟩, ?_⟩
  intro commands quiet later
  have hisHalted : halted.processor.isHalted = true := by
    rw [hhalted]
    rfl
  obtain ⟨k, hk⟩ : ∃ k, later = halted.withKeypad k := performAll_of_isHalted hisHalted quiet
  have hlater : later.processor.isHalted = true := by
    rw [hk]
    exact hisHalted
  refine ⟨⟨k, hk⟩, ?_, ?_, ?_, rfl, fun program font ↦ isHalted_of_load⟩
  · rw [perform, Action.result_map, step_of_isHalted hlater]
    rfl
  · rw [perform, Action.result_map, stepProcessor_of_isHalted hlater]
    rfl
  · intro dt hdt
    constructor
    · rw [perform, Action.result_map, advance_of_isHalted hlater hdt]
      rfl
    · rw [perform, Action.result_map, tick_of_isHalted hlater hdt]
      rfl

/-- An interpreter whose memory holds nothing. -/
def bare : Interpreter :=
  ⟨.initial default false false, .start defaultClockRate defaultTimerRate (by decide) (by decide),
    true⟩

/-- At a word of zeros the processor stops, and neither time nor keys make it go on. -/
theorem bare_stays_halted :
    let later := performAll [.tick .nan, .setKey 0xA true, .step] (stepProcessor bare).state
    later.processor.fault = some ⟨.unknownOpcode 0, some startAddress⟩ ∧
      (perform .stepProcessor later).result = .ok (.instruction none) := by
  have hword : bare.machine.word = ⟨0, 0, 0, 0⟩ := by
    have hm : bare.machine.memory = Memory.blank := rfl
    rw [Machine.word, hm, Memory.wordAt, Memory.byteAt_blank, Memory.byteAt_blank]
    rfl
  have hs : Processor.Stops bare.processor (.unknownOpcode 0) := by
    have hu := Processor.Stops.unknown (p := bare.processor) ⟨by decide, by decide⟩
    rw [show bare.processor.machine.word = ⟨0, 0, 0, 0⟩ from hword] at hu
    exact hu rfl rfl
  obtain ⟨log, hstep⟩ := stepProcessor_of_stops rfl hs
  obtain ⟨-, hall⟩ := fault_stops_cleanly (congrArg Outcome.result hstep)
  obtain ⟨⟨k, hk⟩, -, hnone, -⟩ := hall [.tick .nan, .setKey 0xA true, .step] <| by
    simp only [List.forall_mem_cons]
    exact ⟨.tick _, .setKey _ _, .step, List.forall_mem_nil _⟩
  refine ⟨?_, hnone⟩
  rw [hk, hstep]
  rfl

end Interpreter

end ChipEight
