import ChipEight.Proofs.Account
import ChipEight.Proofs.Countdown

/-!
# Waiting for a key

A program waits for a key by an instruction that goes back to itself until the key is down.  As long
as it is up, neither steps nor time nor other keys change anything but the timers, which count down
as ever, and no step fails.  The first step that finds the key down goes on to the next instruction.
-/

namespace ChipEight

/-- A command that presses a key. -/
def Command.Presses (key : Nat) : Command → Prop
  | .setKey number down => number = key ∧ down = true
  | .setKeys states => states[key]?.getD false
  | _ => False

/-- A command that hands over time. -/
def Command.TakesTime : Command → Prop
  | .tick _ | .advance _ => True
  | _ => False

/-- The key whose number is in register `x`. -/
def Machine.keyIn (m : Machine) (x : Nibble) : Nat := (m.register x).toNat

namespace Processor

variable {p : Processor} {x : Nibble}

/-- A processor that is about to wait for the key whose number is in register `x`, and there is such
a key. -/
structure Awaits (p : Processor) (x : Nibble) : Prop where
  running : p.isHalted = false
  at_rest : p.machine.busy = false
  hasWord : p.machine.HasWord
  word_eq : p.machine.word = ⟨0xF, x, 0, 0xA⟩
  hasKey : p.machine.keyIn x < keyCount

/-- There is nothing to keep it from waiting. -/
theorem Awaits.clear (h : p.Awaits x) (cause : Cause) :
    ¬ Manual.Obstacle p.machine.view ⟨.awaitKey, ⟨0xF, x, 0, 0xA⟩⟩ cause := by
  intro ho
  cases ho with
  | key _ hkey => exact Nat.not_le_of_lt h.hasKey hkey
  | registers hop _ => simp at hop

/-- A step that finds the key up leaves the machine alone, and one that finds it down goes on to the
next instruction and does nothing else. -/
theorem Awaits.step_eq (h : p.Awaits x) :
    step p =
      ⟨{ p with
          machine := { p.machine with
            pc := if p.machine.keypad.isDown (p.machine.keyIn x) then p.machine.pc + 2
              else p.machine.pc }
          keys := p.machine.keypad.toList },
        .ok (some ⟨.awaitKey, ⟨0xF, x, 0, 0xA⟩⟩),
        [.dispatched p.machine.pc ⟨.awaitKey, ⟨0xF, x, 0, 0xA⟩⟩]⟩ := by
  have hi : Instruction.ofWord? p.machine.word = some ⟨.awaitKey, ⟨0xF, x, 0, 0xA⟩⟩ := by
    rw [h.word_eq]
    rfl
  obtain ⟨m, hstep, hm⟩ := step_eq_of_clear h.running h.hasWord hi h.clear
  have hm' : m = { p.machine with
      pc := if p.machine.keypad.isDown (p.machine.keyIn x) then p.machine.pc + 2
        else p.machine.pc } := by
    refine Machine.view_injective (hm.trans ?_)
    ext : 1
    case busy => exact h.at_rest.symm
    all_goals rfl
  rw [hstep, hm']
  rfl

theorem Awaits.step_of_up (h : p.Awaits x)
    (up : p.machine.keypad.isDown (p.machine.keyIn x) = false) :
    step p = ⟨{ p with keys := p.machine.keypad.toList }, .ok (some ⟨.awaitKey, ⟨0xF, x, 0, 0xA⟩⟩),
      [.dispatched p.machine.pc ⟨.awaitKey, ⟨0xF, x, 0, 0xA⟩⟩]⟩ := by
  rw [h.step_eq, up]
  rfl

theorem Awaits.step_of_down (h : p.Awaits x)
    (down : p.machine.keypad.isDown (p.machine.keyIn x) = true) :
    step p =
      ⟨{ p with
          machine := { p.machine with pc := p.machine.pc + 2 }
          keys := p.machine.keypad.toList },
        .ok (some ⟨.awaitKey, ⟨0xF, x, 0, 0xA⟩⟩),
        [.dispatched p.machine.pc ⟨.awaitKey, ⟨0xF, x, 0, 0xA⟩⟩]⟩ := by
  rw [h.step_eq, down]
  rfl

end Processor

namespace Interpreter

open ChipEight.Action (Preserves)

variable {i j : Interpreter} {x : Nibble} {c : Command} {dt : Binary64}

/-- What has become of an interpreter while it waits for the key whose number is in register `x`:
the timers have counted down with the ticks of the clock, the processor has looked at the keys, and
this key is up. -/
structure Waited (i : Interpreter) (x : Nibble) (j : Interpreter) : Prop where
  eq : j = { i with
    processor := { i.processor with machine := j.machine, keys := j.processor.keys }
    pacer := j.pacer }
  machine_eq : j.machine = { i.machine with
    delay := j.machine.delay, sound := j.machine.sound, keypad := j.machine.keypad }
  ticks_le : i.pacer.ticks ≤ j.pacer.ticks
  value_eq (t : Timer) :
    t.value j.machine.view = t.value i.machine.view - (j.pacer.ticks - i.pacer.ticks)
  up : j.machine.keypad.isDown (i.machine.keyIn x) = false

namespace Waited

theorem refl (up : i.machine.keypad.isDown (i.machine.keyIn x) = false) : i.Waited x i where
  eq := rfl
  machine_eq := rfl
  ticks_le := Nat.le_refl _
  value_eq t := by rw [Nat.sub_self, Nat.sub_zero]
  up := up

theorem keyIn_eq (h : i.Waited x j) : j.machine.keyIn x = i.machine.keyIn x := by
  rw [h.machine_eq]
  rfl

/-- It goes on waiting for the same key. -/
theorem awaits (h : i.Waited x j) (hi : i.processor.Awaits x) : j.processor.Awaits x where
  running := by
    rw [h.eq]
    exact hi.running
  at_rest := by
    change j.machine.busy = false
    rw [h.machine_eq]
    exact hi.at_rest
  hasWord := by
    refine (Machine.hasWord_congr ?_).2 hi.hasWord
    change j.machine.pc = _
    rw [h.machine_eq]
    rfl
  word_eq := by
    refine (Machine.word_congr ?_ ?_).trans hi.word_eq
    · change j.machine.memory = _
      rw [h.machine_eq]
      rfl
    · change j.machine.pc = _
      rw [h.machine_eq]
      rfl
  hasKey := h.keyIn_eq.trans_lt hi.hasKey

/-- A step finds the key up and changes nothing that the program can see. -/
theorem stepProcessor_eq (h : i.Waited x j) (hi : i.processor.Awaits x) :
    stepProcessor j =
      ⟨{ j with processor := { j.processor with keys := j.machine.keypad.toList } },
        .ok (some ⟨.awaitKey, ⟨0xF, x, 0, 0xA⟩⟩),
        [.dispatched i.machine.pc ⟨.awaitKey, ⟨0xF, x, 0, 0xA⟩⟩]⟩ := by
  have hpc : j.processor.machine.pc = i.machine.pc := by
    change j.machine.pc = _
    rw [h.machine_eq]
  have up : j.processor.machine.keypad.isDown (j.processor.machine.keyIn x) = false := by
    change j.machine.keypad.isDown (j.machine.keyIn x) = false
    rw [h.keyIn_eq, h.up]
  rw [stepProcessor, onProcessor, Action.on_apply, (h.awaits hi).step_of_up up, hpc]
  rfl

/-- What the processor has seen of the keys, and what the clock counts besides the ticks, makes no
difference. -/
theorem of_eq (h : i.Waited x j) {k : Interpreter}
    (hk : k = { j with
      processor := { j.processor with keys := k.processor.keys }, pacer := k.pacer })
    (hticks : k.pacer.ticks = j.pacer.ticks) : i.Waited x k := by
  have hmachine : k.machine = j.machine := by
    rw [hk]
    rfl
  constructor
  case eq =>
    rw [hmachine, hk, h.eq]
    rfl
  case machine_eq =>
    rw [hmachine]
    exact h.machine_eq
  case ticks_le => exact h.ticks_le.trans_eq hticks.symm
  case value_eq =>
    intro t
    rw [hmachine, hticks]
    exact h.value_eq t
  case up =>
    rw [hmachine]
    exact h.up

theorem withKeypad (h : i.Waited x j) {keypad : Keypad}
    (up : keypad.isDown (i.machine.keyIn x) = false) : i.Waited x (j.withKeypad keypad) where
  eq := by
    rw [h.eq]
    rfl
  machine_eq := by
    change { j.machine with keypad := keypad } = _
    rw [h.machine_eq]
    rfl
  ticks_le := h.ticks_le
  value_eq t := by
    cases t with
    | delay => exact h.value_eq .delay
    | sound => exact h.value_eq .sound
  up := up

/-- The timers count down with the ticks of the clock. -/
theorem payTimers (h : i.Waited x j) : i.Waited x j.payTimers := by
  obtain ⟨n, hmachine, hticks⟩ := payTimers_eq_ticks j
  constructor
  case eq =>
    rw [h.eq]
    rfl
  case machine_eq =>
    refine invariant_payTimers (P := fun m ↦ m = { i.machine with
      delay := m.delay, sound := m.sound, keypad := m.keypad }) (fun m hm ↦ ?_) h.machine_eq
    rw [Machine.countDown, hm]
  case ticks_le =>
    have := h.ticks_le
    omega
  case value_eq =>
    intro t
    have := h.ticks_le
    rw [hmachine, hticks, Timer.value_repeat_countDown, h.value_eq]
    omega
  case up =>
    refine invariant_payTimers (P := fun m ↦ m.keypad.isDown (i.machine.keyIn x) = false) ?_ h.up
    exact fun m hm ↦ hm

/-- The end of a turn counts an instruction, and then it is the turn of the timers. -/
theorem endTurn (h : i.Waited x j) : i.Waited x j.endTurn :=
  (h.of_eq (k := j.countInstructions 1) rfl rfl).payTimers

theorem preserves_stepProcessor (hi : i.processor.Awaits x) :
    Preserves (i.Waited x) stepProcessor := by
  intro j h
  rw [h.stepProcessor_eq hi]
  exact h.of_eq rfl rfl

theorem preserves_accrue (dt : Binary64) : Preserves (i.Waited x) (accrue dt) := by
  intro j h
  obtain ⟨y, hy⟩ := state_accrue dt j
  rw [hy]
  exact h.of_eq rfl rfl

theorem preserves_turn (hi : i.processor.Awaits x) : Preserves (i.Waited x) turn :=
  invariant_turn (preserves_stepProcessor hi) fun _ h ↦ h.endTurn

theorem preserves_advance (hi : i.processor.Awaits x) (dt : Binary64) :
    Preserves (i.Waited x) (advance dt) :=
  invariant_advance (preserves_turn hi) (preserves_accrue dt)

/-- What leaves the key up leaves the wait as it is. -/
theorem preserves_askKeypad {α : Type} (reply : α → Reply) {y : Action Keypad α}
    (hy : Preserves (fun k ↦ k.isDown (i.machine.keyIn x) = false) y) :
    Preserves (i.Waited x) (ask reply (Machine.onKeypad y)) := by
  intro j h
  rw [state_ask_onKeypad]
  exact h.withKeypad (hy _ h.up)

/-- Quiet commands that do not press the key leave the wait as it is. -/
theorem preserves_perform (hi : i.processor.Awaits x) (hc : c.Quiet)
    (hpresses : ¬ c.Presses (i.machine.keyIn x)) : Preserves (i.Waited x) (perform c) := by
  have hstep := preserves_stepProcessor hi
  cases hc with
  | step => exact ((Preserves.gets _).bind fun _ ↦ hstep.ite (.pure _)).map _
  | stepProcessor => exact hstep.map _
  | runProcessor count =>
    exact ((hstep.bind fun _ ↦ .pure _).replicate count).bind fun _ ↦ .pure _
  | tick dt => exact (invariant_tick (preserves_advance hi dt)).map _
  | advance dt => exact (preserves_advance hi dt).map _
  | setKey number down =>
    refine preserves_askKeypad _ fun k up ↦ ?_
    by_cases hinside : 0 ≤ number ∧ number < keyCount
    · rw [k.set_of_inside down hinside]
      change (k.put number.toNat down).isDown _ = false
      rw [Keypad.isDown_put _ (by omega)]
      split
      · next hkey =>
        exact Bool.eq_false_of_not_eq_true fun hdown ↦ hpresses ⟨by omega, hdown⟩
      · exact up
    · rw [k.set_of_outside down hinside]
      exact up
  | setKeys states =>
    refine preserves_askKeypad _ fun k up ↦ ?_
    by_cases hcount : states.length = keyCount
    · rw [k.setAll_of_length_eq hcount]
      exact (Keypad.isDown_toArray hcount _).trans (Bool.eq_false_of_not_eq_true hpresses)
    · rw [k.setAll_of_length_ne hcount]
      exact up
  | releaseKeys => exact fun j h ↦ h.withKeypad (Keypad.isDown_released _)
  | load hunfit =>
    intro j h
    rw [perform, Action.state_map, state_load_of_unfit hunfit]
    exact h

theorem performAll (h : i.Waited x j) (hi : i.processor.Awaits x) {commands : List Command}
    (hc : ∀ c ∈ commands, c.Quiet ∧ ¬ c.Presses (i.machine.keyIn x)) :
    i.Waited x (performAll commands j) := by
  have hstep : ∀ c, c.Quiet ∧ ¬ c.Presses (i.machine.keyIn x) →
      Preserves (i.Waited x) (perform c) := fun _ hc ↦ preserves_perform hi hc.1 hc.2
  exact performAll_invariant hstep hc h

/-- No turn fails. -/
theorem result_turns (h : i.Waited x j) (hi : i.processor.Awaits x) (count : Nat) :
    (Action.replicate count turn j).result = .ok () := by
  induction count generalizing j with
  | zero => rfl
  | succ count ih =>
    have hstep : (stepProcessor j).result = .ok (some ⟨.awaitKey, ⟨0xF, x, 0, 0xA⟩⟩) := by
      rw [h.stepProcessor_eq hi]
    have hturn := (turn_of_ok hstep).2
    rw [Action.replicate_succ, Action.bind_of_ok hturn]
    exact ih (preserves_turn hi j h)

/-- A time step that is not negative and makes a finite sum is spent on turns, none of which fails;
all others are refused. -/
theorem advance_cases (h : i.Waited x j) (hi : i.processor.Awaits x) (dt : Binary64) :
    ((∃ refusal, (advance dt j).result = .error (.refusal refusal)) ∧
        (dt.isNegative = false → ∀ y, j.pacer.sum? dt ≠ some (.finite y))) ∨
      ∃ y, j.pacer.sum? dt = some (.finite y) ∧
        (advance dt j).result = .ok (wholePart y).toNat := by
  have ho := advances_advance dt j
  generalize advance dt j = o at ho
  cases ho with
  | backwards hdt => exact .inl ⟨⟨_, rfl⟩, fun hdt' ↦ by simp [hdt] at hdt'⟩
  | halted _ halted => cases (h.awaits hi).running.symm.trans halted
  | rateOutOfRange _ _ hsum => exact .inl ⟨⟨_, rfl⟩, fun _ y ↦ by simp [hsum]⟩
  | notFinite refusal _ _ hsum hy =>
    refine .inl ⟨⟨refusal, rfl⟩, fun _ y hfinite ↦ ?_⟩
    rw [hsum] at hfinite
    cases hfinite
    cases hy
  | @spent y _ _ hsum =>
    have hturns := (h.of_eq (k := j.withPending (.ofRat (y - wholePart y))) rfl rfl).result_turns hi
      (wholePart y).toNat
    refine .inr ⟨y, hsum, ?_⟩
    rw [Action.result_map, hturns]
    rfl

/-- Time never runs into a fault. -/
theorem advance_ne_fault (h : i.Waited x j) (hi : i.processor.Awaits x) (f : Fault) :
    (advance dt j).result ≠ .error (.fault f) := by
  intro hf
  obtain ⟨⟨refusal, hr⟩, -⟩ | ⟨y, -, hr⟩ := h.advance_cases hi dt
  · cases hr.symm.trans hf
  · cases hr.symm.trans hf

theorem advance_eq_ok (h : i.Waited x j) (hi : i.processor.Awaits x) {y : Rat}
    (hdt : dt.isNegative = false) (hsum : j.pacer.sum? dt = some (.finite y)) :
    (advance dt j).result = .ok (wholePart y).toNat := by
  obtain ⟨-, hnot⟩ | ⟨z, hz, hr⟩ := h.advance_cases hi dt
  · exact absurd hsum (hnot hdt y)
  · cases hsum.symm.trans hz
    exact hr

end Waited

/-- Without time the clocks stand still. -/
theorem pacer_performAll_of_quiet {commands : List Command}
    (hc : ∀ c ∈ commands, c.Quiet ∧ ¬ c.TakesTime) :
    (performAll commands i).pacer = i.pacer := by
  refine performAll_invariant (P := fun j ↦ j.pacer = i.pacer) ?_ hc rfl
  rintro c ⟨hquiet, htime⟩ j hj
  cases hquiet with
  | tick dt => exact (htime trivial).elim
  | advance dt => exact (htime trivial).elim
  | load hunfit =>
    rw [perform, Action.state_map, state_load_of_unfit hunfit]
    exact hj
  | _ => exact (pacer_perform rfl id).trans hj

/-- Without ticks the timers stand still. -/
theorem Waited.machine_eq_of_ticks_eq (h : i.Waited x j) (hticks : j.pacer.ticks = i.pacer.ticks) :
    j.machine = { i.machine with keypad := j.machine.keypad } := by
  have hvalue (t : Timer) : t.value j.machine.view = t.value i.machine.view := by
    rw [h.value_eq, hticks, Nat.sub_self, Nat.sub_zero]
  have hdelay : j.machine.delay = i.machine.delay := UInt8.toNat_inj.1 (hvalue .delay)
  have hsound : j.machine.sound = i.machine.sound := UInt8.toNat_inj.1 (hvalue .sound)
  rw [h.machine_eq, hdelay, hsound]

/-- The step that finds the key down. -/
theorem Waited.stepProcessor_of_down (h : i.Waited x j) (hi : i.processor.Awaits x)
    {keypad : Keypad} (down : keypad.isDown (i.machine.keyIn x) = true) :
    let k := j.withKeypad keypad
    stepProcessor k =
      ⟨{ k with processor := { k.processor with
          machine := { k.machine with pc := i.machine.pc + 2 }
          keys := keypad.toList } },
        .ok (some ⟨.awaitKey, ⟨0xF, x, 0, 0xA⟩⟩),
        [.dispatched i.machine.pc ⟨.awaitKey, ⟨0xF, x, 0, 0xA⟩⟩]⟩ := by
  intro k
  have hawaits := h.awaits hi
  have hk : k.processor.Awaits x :=
    ⟨hawaits.running, hawaits.at_rest, hawaits.hasWord, hawaits.word_eq, hawaits.hasKey⟩
  have hpc : k.processor.machine.pc = i.machine.pc := by
    change j.machine.pc = _
    rw [h.machine_eq]
  have hdown : k.processor.machine.keypad.isDown (k.processor.machine.keyIn x) = true := by
    change keypad.isDown (j.machine.keyIn x) = true
    rw [h.keyIn_eq, down]
  rw [stepProcessor, onProcessor, Action.on_apply, hk.step_of_down hdown, hpc]
  rfl

/-- A program that waits for a key changes nothing until it is pressed.  However many instructions
the host asks for, however much time it hands over and whatever it does to the other keys, the
machine stays as it was but for these keys and the timers, which count down with the ticks of the
clock and stand still without time.  Each step gives the instruction that waits and leaves the
machine as it is, and time steps come to no fault: those that are not refused are spent.  The first
step that finds the key down moves the program counter behind the instruction and does nothing
else. -/
theorem waits_for_key (hi : i.processor.Awaits x)
    (up : i.machine.keypad.isDown (i.machine.keyIn x) = false) {commands : List Command}
    (hc : ∀ c ∈ commands, c.Quiet ∧ ¬ c.Presses (i.machine.keyIn x)) :
    let j := performAll commands i
    let ticks := j.pacer.ticks - i.pacer.ticks
    j = { i with
      processor := { i.processor with machine := j.machine, keys := j.processor.keys }
      pacer := j.pacer } ∧
    j.machine = { i.machine with
      delay := j.machine.delay, sound := j.machine.sound, keypad := j.machine.keypad } ∧
    j.machine.delay.toNat = i.machine.delay.toNat - ticks ∧
    j.machine.sound.toNat = i.machine.sound.toNat - ticks ∧
    ((∀ c ∈ commands, ¬ c.TakesTime) →
      j.machine = { i.machine with keypad := j.machine.keypad }) ∧
    stepProcessor j =
      ⟨{ j with processor := { j.processor with keys := j.machine.keypad.toList } },
        .ok (some ⟨.awaitKey, ⟨0xF, x, 0, 0xA⟩⟩),
        [.dispatched i.machine.pc ⟨.awaitKey, ⟨0xF, x, 0, 0xA⟩⟩]⟩ ∧
    (∀ dt f, (advance dt j).result ≠ .error (.fault f)) ∧
    (∀ dt y, dt.isNegative = false → j.pacer.sum? dt = some (.finite y) →
      (advance dt j).result = .ok (wholePart y).toNat) ∧
    ∀ keypad : Keypad, keypad.isDown (i.machine.keyIn x) = true →
      let k := j.withKeypad keypad
      stepProcessor k =
        ⟨{ k with processor := { k.processor with
            machine := { k.machine with pc := i.machine.pc + 2 }
            keys := keypad.toList } },
          .ok (some ⟨.awaitKey, ⟨0xF, x, 0, 0xA⟩⟩),
          [.dispatched i.machine.pc ⟨.awaitKey, ⟨0xF, x, 0, 0xA⟩⟩]⟩ := by
  intro j ticks
  have h : i.Waited x j := (Waited.refl up).performAll hi hc
  refine ⟨h.eq, h.machine_eq, h.value_eq .delay, h.value_eq .sound, fun htime ↦ ?_,
    h.stepProcessor_eq hi, fun _ ↦ h.advance_ne_fault hi, fun _ _ ↦ h.advance_eq_ok hi,
    fun _ ↦ h.stepProcessor_of_down hi⟩
  refine h.machine_eq_of_ticks_eq (congrArg Pacer.ticks ?_)
  exact pacer_performAll_of_quiet fun c hmem ↦ ⟨(hc c hmem).1, htime c hmem⟩

/-- An interpreter that waits at the end of memory for the key 7, while a timer runs. -/
def waiting : Interpreter :=
  bare.withMachine { bare.machine with
    memory := Memory.blank.splice 4094 [0xF3, 0x0A]
    registers := bare.machine.registers.set 3 7
    pc := 4094
    delay := 200 }

/-- Another key and a second of time do not move it on; its own key does. -/
theorem waiting_goes_on_at_its_key :
    let j := performAll [.setKey 6 true, .advance (.finite 1), .step] waiting
    j.machine = { waiting.machine with
      delay := j.machine.delay, sound := j.machine.sound, keypad := j.machine.keypad } ∧
    (stepProcessor j).result = .ok (some ⟨.awaitKey, ⟨0xF, 3, 0, 0xA⟩⟩) ∧
    (stepProcessor (j.withKeypad ⟨.replicate keyCount true⟩)).state.machine.pc = 4096 := by
  have hi : waiting.processor.Awaits 3 :=
    ⟨rfl, rfl, ⟨by decide, by decide⟩, by decide +kernel, by decide +kernel⟩
  have up : waiting.machine.keypad.isDown (waiting.machine.keyIn 3) = false := by decide +kernel
  have hkey : ¬ Command.Presses (waiting.machine.keyIn 3) (.setKey 6 true) := by
    rintro ⟨hkey, -⟩
    revert hkey
    decide +kernel
  have hc : ∀ c ∈ [.setKey 6 true, .advance (.finite 1), .step],
      Command.Quiet c ∧ ¬ c.Presses (waiting.machine.keyIn 3) := by
    simp only [List.forall_mem_cons]
    exact ⟨⟨.setKey _ _, hkey⟩, ⟨.advance _, id⟩, ⟨.step, id⟩, List.forall_mem_nil _⟩
  have down : Keypad.isDown ⟨.replicate keyCount true⟩ (waiting.machine.keyIn 3) = true := by
    decide +kernel
  obtain ⟨-, hmachine, -, -, -, hstep, -, -, hdown⟩ := waits_for_key hi up hc
  exact ⟨hmachine, congrArg (fun o ↦ o.result) hstep,
    congrArg (fun o ↦ o.state.machine.pc) (hdown _ down)⟩

end Interpreter

end ChipEight
