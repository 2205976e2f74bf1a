import ChipEight.Proofs.Clocks
import ChipEight.Proofs.Halting

/-!
# The frame rate does not matter

However a host cuts its time into steps, the program runs one instruction after the other, each
followed by its timer ticks: a run of time steps leaves what as many instructions leave that are
carried out one by one, and at a fault what the step that failed leaves.  All that remembers the
host's steps is the account of pending time.
-/

namespace ChipEight

namespace Interpreter

variable {i j k : Interpreter}

/-- One instruction, and then its timer ticks. -/
def next (i : Interpreter) : Interpreter := (stepProcessor i).state.payTimers

/-! ## Pending time and counted instructions -/

/-- The interpreter with instructions counted and another account of pending time. -/
def counted (i : Interpreter) (count : Nat) (x : Binary64) : Interpreter :=
  (i.countInstructions count).withPending x

theorem state_stepProcessor_counted (i : Interpreter) (count : Nat) (x : Binary64) :
    (stepProcessor (i.counted count x)).state = (stepProcessor i).state.counted count x := rfl

/-- Instructions and their ticks take no notice of the number of instructions and of pending
time. -/
theorem commute_next_counted (count : Nat) (x : Binary64) :
    Function.Commute next fun i ↦ i.counted count x := fun i ↦ by
  rw [next, state_stepProcessor_counted, next]
  simp only [payTimers, Pacer.payTimers, Pacer.settle_eq]
  rfl

theorem iterate_next_counted (n : Nat) (i : Interpreter) (count : Nat) (x : Binary64) :
    next^[n] (i.counted count x) = (next^[n] i).counted count x :=
  (commute_next_counted count x).iterate_left n i

/-- Instructions that are counted one part after the other are counted together. -/
theorem counted_counted (i : Interpreter) (m n : Nat) (x y : Binary64) :
    (i.counted m x).counted n y = i.counted (m + n) y := by
  simp only [counted, countInstructions, withPending, Nat.add_assoc]

/-! ## Turns -/

/-- A turn is an instruction with its ticks, which it counts. -/
theorem endTurn_stepProcessor (i : Interpreter) :
    (stepProcessor i).state.endTurn = i.next.countInstructions 1 :=
  payTimers_countInstructions 1 _

theorem instructions_endTurn (i : Interpreter) :
    i.endTurn.pacer.instructions = i.pacer.instructions + 1 := by
  rw [endTurn, payTimers, Pacer.payTimers, Pacer.settle_eq]
  rfl

theorem turn_of_ok {answer : Option Instruction} (h : (stepProcessor i).result = .ok answer) :
    (turn i).state = (stepProcessor i).state.endTurn ∧ (turn i).result = .ok () := by
  rw [turn, Action.bind_of_ok h]
  exact ⟨rfl, rfl⟩

theorem turn_of_error {e : Error} (h : (stepProcessor i).result = .error e) :
    (turn i).state = (stepProcessor i).state ∧ (turn i).result = .error e := by
  rw [turn, Action.bind_of_error h]
  exact ⟨rfl, rfl⟩

/-- A step halts the processor if it fails, and only then. -/
theorem isHalted_stepProcessor (running : i.processor.isHalted = false) :
    (stepProcessor i).state.processor.isHalted = true ↔
      ∃ e, (stepProcessor i).result = .error e := by
  change (Processor.step i.processor).state.isHalted = true ↔
    ∃ e, (Processor.step i.processor).result = .error e
  have hsteps := Processor.steps_step i.processor
  generalize (Processor.step i.processor).state = q, (Processor.step i.processor).result = answer
    at hsteps
  cases hsteps with
  | halted h => simp [running] at h
  | stopped _ _ => simp [Processor.stopped]
  | passed _ _ _ _ => simp [Processor.passed, running]
  | carriedOut _ _ _ _ _ => simp [Processor.carriedOut, running]

/-- `j` is what `count` instructions make of `i`, one after the other, each with its ticks, but that
they are counted and for pending time, and at a halt one more step that fails. -/
structure Paced (i : Interpreter) (count : Nat) (j : Interpreter) : Prop where
  instructions : j.pacer.instructions = i.pacer.instructions + count
  succeeds : ∀ n < count, ∃ answer, (stepProcessor (next^[n] i)).result = .ok answer
  fails : j.processor.isHalted = true → ∃ e, (stepProcessor (next^[count] i)).result = .error e
  eq_counted :
    j = (if j.processor.isHalted then (stepProcessor (next^[count] i)).state
      else next^[count] i).counted count j.pacer.pending

namespace Paced

theorem of_running (running : i.processor.isHalted = false) (x : Binary64) :
    Paced i 0 (i.withPending x) where
  instructions := rfl
  succeeds _ hn := absurd hn (Nat.not_lt_zero _)
  fails h := absurd (running.symm.trans h) Bool.false_ne_true
  eq_counted := by
    have h : (i.withPending x).processor.isHalted = false := running
    rw [h]
    rfl

theorem of_turn (running : i.processor.isHalted = false) :
    ∃ count, Paced i count (turn i).state := by
  cases h : (stepProcessor i).result with
  | ok answer =>
    have hrunning : i.next.processor.isHalted = false := by
      rw [← Bool.not_eq_true]
      intro hn
      obtain ⟨e, he⟩ := (isHalted_stepProcessor running).1 hn
      simp [h] at he
    rw [(turn_of_ok h).1, endTurn_stepProcessor]
    refine ⟨1, ⟨?_, ?_, ?_, ?_⟩⟩
    · rw [← endTurn_stepProcessor]
      exact instructions_endTurn _
    · intro n hn
      obtain rfl : n = 0 := by omega
      exact ⟨answer, h⟩
    · exact fun hn ↦ absurd (hrunning.symm.trans hn) Bool.false_ne_true
    · rw [show (i.next.countInstructions 1).processor.isHalted = false from hrunning]
      rfl
  | error e =>
    have hhalted := (isHalted_stepProcessor running).2 ⟨e, h⟩
    rw [(turn_of_error h).1]
    refine ⟨0, ⟨rfl, fun n hn ↦ absurd hn (Nat.not_lt_zero n), fun _ ↦ ⟨e, h⟩, ?_⟩⟩
    rw [hhalted]
    rfl

theorem eq_of_running {count : Nat} (h : Paced i count j) (running : j.processor.isHalted = false) :
    j = (next^[count] i).counted count j.pacer.pending := by
  have hj := h.eq_counted
  rw [running] at hj
  exact hj

/-- Instructions in a row, with time added in between. -/
theorem trans {m n : Nat} {x : Binary64} (h : Paced i m j) (running : j.processor.isHalted = false)
    (h' : Paced (j.withPending x) n k) : Paced i (m + n) k := by
  have hj : ∀ r, next^[r] (j.withPending x) = (next^[m + r] i).counted m x := by
    intro r
    have hx : j.withPending x = (next^[m] i).counted m x :=
      congrArg (·.withPending x) (h.eq_of_running running)
    rw [hx, iterate_next_counted, Nat.add_comm m r, Function.iterate_add_apply]
  constructor
  case instructions =>
    have hk : k.pacer.instructions = j.pacer.instructions + n := h'.instructions
    rw [hk, h.instructions, Nat.add_assoc]
  case succeeds =>
    intro r hr
    by_cases hm : r < m
    · exact h.succeeds r hm
    · obtain ⟨s, rfl⟩ := Nat.exists_eq_add_of_le (Nat.le_of_not_lt hm)
      have hs := h'.succeeds s (by omega)
      rw [hj] at hs
      exact hs
  case fails =>
    intro hk
    have he := h'.fails hk
    rw [hj] at he
    exact he
  case eq_counted =>
    have hk := h'.eq_counted
    rw [hj] at hk
    split
    · next hh =>
      rw [if_pos hh, state_stepProcessor_counted, counted_counted] at hk
      exact hk
    · next hh =>
      rw [if_neg hh, counted_counted] at hk
      exact hk

theorem of_turns (running : i.processor.isHalted = false) (turns : Nat) :
    ∃ count, Paced i count (Action.replicate turns turn i).state := by
  induction turns generalizing i with
  | zero => exact ⟨0, of_running running i.pacer.pending⟩
  | succ turns ih =>
    obtain ⟨m, hm⟩ := of_turn running
    rw [Action.replicate_succ]
    cases hr : (stepProcessor i).result with
    | error e =>
      rw [Action.bind_of_error (turn_of_error hr).2]
      exact ⟨m, hm⟩
    | ok answer =>
      have hrunning : (turn i).state.processor.isHalted = false := by
        rw [(turn_of_ok hr).1, endTurn_stepProcessor, ← Bool.not_eq_true]
        intro hn
        obtain ⟨e, he⟩ := (isHalted_stepProcessor running).1 hn
        simp [hr] at he
      obtain ⟨n, hn⟩ := ih hrunning
      rw [Action.bind_of_ok (turn_of_ok hr).2]
      exact ⟨m + n, hm.trans hrunning hn⟩

/-- A time step is some instructions, each with its ticks. -/
theorem of_advance (running : i.processor.isHalted = false) (dt : Binary64) :
    ∃ count, Paced i count (advance dt i).state := by
  obtain ⟨x, hx⟩ := state_accrue dt i
  rw [advance_eq]
  split
  · exact ⟨0, of_running running i.pacer.pending⟩
  · rw [Action.gets_bind, if_neg (by simp [running])]
    cases hr : (accrue dt i).result with
    | error e =>
      rw [Action.bind_of_error hr, hx]
      exact ⟨0, of_running running x⟩
    | ok turns =>
      rw [Action.bind_of_ok hr, hx]
      obtain ⟨n, hn⟩ := of_turns (i := i.withPending x) running turns
      refine ⟨0 + n, (of_running running i.pacer.pending).trans running (x := x) ?_⟩
      rw [← Action.state_map (fun _ ↦ turns)] at hn
      exact hn

/-- However time is cut into steps, a run of them is some instructions, each with its ticks. -/
theorem of_advances (running : i.processor.isHalted = false) (steps : List Binary64) :
    ∃ count, Paced i count (performAll (steps.map .advance) i) := by
  have hall : ∀ c ∈ steps.map Command.advance, ∃ dt, c = .advance dt := by
    intro c hc
    obtain ⟨dt, -, rfl⟩ := List.mem_map.1 hc
    exact ⟨dt, rfl⟩
  refine performAll_invariant (P := fun j ↦ ∃ count, Paced i count j) ?_ hall
    ⟨0, of_running running i.pacer.pending⟩
  rintro _ ⟨dt, rfl⟩ j ⟨m, hm⟩
  rw [perform, Action.state_map]
  cases hj : j.processor.isHalted with
  | true =>
    rw [state_advance_of_isHalted hj]
    exact ⟨m, hm⟩
  | false =>
    obtain ⟨n, hn⟩ := of_advance hj dt
    exact ⟨m + n, hm.trans hj (x := j.pacer.pending) hn⟩

/-- As many instructions and the same end leave the same but for pending time. -/
theorem eq_of_isHalted_eq {count : Nat} (h : Paced i count j) (h' : Paced i count k)
    (hhalted : k.processor.isHalted = j.processor.isHalted) :
    k = j.withPending k.pacer.pending := by
  have hk := h'.eq_counted
  rw [hhalted] at hk
  have hj := congrArg (fun i ↦ i.withPending k.pacer.pending) h.eq_counted
  exact hk.trans hj.symm

end Paced

/-- The frame rate does not matter.  Whatever time steps a host hands over, also ones that are
refused or end in a fault, all but the account of pending time is what the instructions that have
been counted make of the interpreter one by one, each followed by its timer ticks, and at a halt one
more step that fails.  So two hosts that have come equally far, and both or neither to a halt, have
the same interpreter but for pending time. -/
theorem frame_rate_independent (running : i.processor.isHalted = false) (steps : List Binary64) :
    let j := performAll (steps.map .advance) i
    let count := j.pacer.instructions - i.pacer.instructions
    i.pacer.instructions ≤ j.pacer.instructions ∧
    (∀ n < count, ∃ answer, (stepProcessor (next^[n] i)).result = .ok answer) ∧
    (j.processor.isHalted = true → ∃ e, (stepProcessor (next^[count] i)).result = .error e) ∧
    j = ((if j.processor.isHalted then (stepProcessor (next^[count] i)).state
      else next^[count] i).countInstructions count).withPending j.pacer.pending ∧
    ∀ steps' : List Binary64,
      let k := performAll (steps'.map .advance) i
      k.pacer.instructions = j.pacer.instructions →
      k.processor.isHalted = j.processor.isHalted → k = j.withPending k.pacer.pending := by
  intro j count
  obtain ⟨n, hn⟩ : ∃ n, Paced i n j := Paced.of_advances running steps
  obtain rfl : n = count := by
    have h : j.pacer.instructions = i.pacer.instructions + n := hn.instructions
    omega
  refine ⟨?_, hn.succeeds, hn.fails, hn.eq_counted, fun steps' ↦ ?_⟩
  · rw [hn.instructions]
    exact Nat.le_add_right _ _
  · intro k hinstructions hhalted
    obtain ⟨m, hm⟩ : ∃ m, Paced i m k := Paced.of_advances running steps'
    obtain rfl : m = count := by
      have h : k.pacer.instructions = i.pacer.instructions + m := hm.instructions
      omega
    exact hn.eq_of_isHalted_eq hm hhalted

/-- A program that sets the delay timer to nine and then jumps to itself. -/
def settingDelay : Bytes := [0x60, 0x09, 0xF0, 0x15, 0x12, 0x04]

/-- The program right after its load, with a clock that is slower than the timers. -/
def delaySet : Interpreter :=
  performAll [.load settingDelay builtInFont]
    ⟨.initial default false false, .start 2 5 (by decide) (by decide), false⟩

/-- Five quarters of a second hold two instructions and half of a third one, be they handed over in
two parts with a refused one in between, or at once.  Both ways are what the two instructions do one
by one, and come to the same. -/
theorem delaySet_cut_in_two_ways :
    let j := performAll ([.finite (1 / 2), .finite (-1), .finite (3 / 4)].map .advance) delaySet
    let k := performAll ([.finite (5 / 4)].map .advance) delaySet
    j.pacer.instructions = 2 ∧ j.pacer.ticks = 5 ∧ j.machine.delay = 6 ∧
      j.pacer.pending = .finite (1 / 2) ∧
      j = ((next (next delaySet)).countInstructions 2).withPending (.finite (1 / 2)) ∧ k = j := by
  have hvalues :
      let j := performAll ([.finite (1 / 2), .finite (-1), .finite (3 / 4)].map .advance) delaySet
      let k := performAll ([.finite (5 / 4)].map .advance) delaySet
      delaySet.processor.isHalted = false ∧ delaySet.pacer.instructions = 0 ∧
        (j.pacer.instructions = 2 ∧ j.pacer.ticks = 5 ∧ j.machine.delay = 6 ∧
          j.pacer.pending = .finite (1 / 2) ∧ j.processor.isHalted = false) ∧
        k.pacer.instructions = 2 ∧ k.pacer.pending = .finite (1 / 2) ∧
          k.processor.isHalted = false := by
    decide +kernel
  obtain ⟨running, hnone, ⟨hcount, hticks, hdelay, hpending, hrunning⟩, hcount', hpending',
    hrunning'⟩ := hvalues
  obtain ⟨-, -, -, hj, hother⟩ :=
    frame_rate_independent running [.finite (1 / 2), .finite (-1), .finite (3 / 4)]
  have hk := hother [.finite (5 / 4)] (hcount'.trans hcount.symm) (hrunning'.trans hrunning.symm)
  rw [hcount, hnone, hpending, hrunning] at hj
  refine ⟨hcount, hticks, hdelay, hpending, hj, hk.trans ?_⟩
  rw [hpending'.trans hpending.symm]
  rfl

end Interpreter

end ChipEight
