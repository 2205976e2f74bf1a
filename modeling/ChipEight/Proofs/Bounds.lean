import ChipEight.Proofs.Runs
import ChipEight.Proofs.Stack
import ChipEight.Proofs.Step

/-!
# Bounds

The types bound all of the machine but for the program counter and the return addresses, which are
integers.  A jump from a register leads at most to `0x10FE`, and a call is fetched from memory, so
that it returns at most to the end of memory; both bounds together are an invariant.  It follows
that the program counter never comes near its sixteen bits and that execution never wraps around.
-/

namespace ChipEight

/-- The largest address that a jump leads to: the largest register and the largest operand. -/
def maxAddress : Int := 0x10FE

/-- The program counter and the return addresses are within their bounds, and the machine is at
rest. -/
structure View.Bounded (v : View) : Prop where
  pc_nonneg : 0 ≤ v.pc
  pc_le : v.pc ≤ maxAddress
  slots_nonneg : ∀ k, 0 ≤ v.slots k
  slots_le : ∀ k, v.slots k ≤ memorySize
  at_rest : v.busy = false

namespace View.Bounded

variable {v w : View}

/-- All that counts is the program counter, the stack and whether the machine is at rest. -/
theorem of_eq (h : v.Bounded) (hpc : w.pc = v.pc) (hslots : w.slots = v.slots)
    (hbusy : w.busy = v.busy) : w.Bounded where
  pc_nonneg := hpc ▸ h.pc_nonneg
  pc_le := hpc ▸ h.pc_le
  slots_nonneg := hslots ▸ h.slots_nonneg
  slots_le := hslots ▸ h.slots_le
  at_rest := hbusy.trans h.at_rest

/-- Going on elsewhere with the same stack. -/
theorem going (h : v.Bounded) (hlow : 0 ≤ w.pc) (hhigh : w.pc ≤ maxAddress)
    (hslots : w.slots = v.slots) (hbusy : w.busy = false) : w.Bounded where
  pc_nonneg := hlow
  pc_le := hhigh
  slots_nonneg := hslots ▸ h.slots_nonneg
  slots_le := hslots ▸ h.slots_le
  at_rest := hbusy

end View.Bounded

namespace Manual

/-- An instruction fetched from memory keeps the bounds. -/
theorem bounded_after {legacyStore : Bool} {i : Instruction} {byte : UInt8} {v : View}
    (h : v.Bounded) (hv : v.pc + 1 < memorySize) (h0 : v.registers Machine.jumpRegister < 256) :
    (after legacyStore i byte v).Bounded := by
  obtain ⟨op, w⟩ := i
  have hmemory : (memorySize : Int) = 4096 := rfl
  have hmax : maxAddress = 0x10FE := rfl
  have hlow := h.pc_nonneg
  have hnnn := w.nnn_lt
  have skip (condition : Prop) [Decidable condition] :
      (View.skipIf { v with busy := false } condition).Bounded := by
    refine h.going ?_ ?_ rfl rfl
    · simp only [View.skipIf]; split <;> omega
    · simp only [View.skipIf]; split <;> omega
  cases op with
  | ret =>
    refine h.going (h.slots_nonneg _) ?_ rfl rfl
    exact Int.le_trans (h.slots_le _) (by decide)
  | jump => exact h.going (Int.natCast_nonneg _) (by simp only [after]; omega) rfl rfl
  | call =>
    constructor
    case pc_nonneg => exact Int.natCast_nonneg _
    case pc_le => simp only [after]; omega
    case slots_nonneg =>
      intro k
      simp only [after]
      split
      · omega
      · exact h.slots_nonneg k
    case slots_le =>
      intro k
      simp only [after]
      split
      · omega
      · exact h.slots_le k
    case at_rest => rfl
  | jumpFrom => exact h.going (by simp only [after]; omega) (by simp only [after]; omega) rfl rfl
  | skipIfByte => exact skip _
  | skipUnlessByte => exact skip _
  | skipIfEqual => exact skip _
  | skipUnlessEqual => exact skip _
  | skipIfPressed => exact skip _
  | skipUnlessPressed => exact skip _
  | awaitKey =>
    refine h.going ?_ ?_ rfl rfl
    · simp only [after]; split <;> omega
    · simp only [after]; split <;> omega
  | _ =>
    have hnext : 0 ≤ v.pc + 2 ∧ v.pc + 2 ≤ maxAddress := by omega
    exact h.going hnext.1 hnext.2 rfl rfl

end Manual

namespace Machine

/-- After an attempt to fetch a word the program counter is still within its bounds. -/
theorem nextPc_bounds {m : Machine} (h : m.view.Bounded) :
    0 ≤ m.nextPc ∧ m.nextPc ≤ maxAddress := by
  have hmemory : (memorySize : Int) = 4096 := rfl
  have hmax : maxAddress = 0x10FE := rfl
  have hlow : 0 ≤ m.pc := h.pc_nonneg
  have hhigh : m.pc ≤ maxAddress := h.pc_le
  by_cases hw : m.HasWord
  · rw [nextPc_of_hasWord hw]
    obtain ⟨-, hw⟩ := hw
    omega
  · rw [nextPc_of_not_hasWord hw]
    exact ⟨hlow, hhigh⟩

end Machine

namespace Processor

variable {p : Processor}

/-- The bounds of the machine, and the fault that goes with a halt. -/
structure Bounded (p : Processor) : Prop where
  machine : p.machine.view.Bounded
  halted_iff : p.isHalted = true ↔ p.fault.isSome

/-- A step keeps the bounds. -/
theorem bounded_step (h : p.Bounded) : (step p).state.Bounded := by
  have hsteps := steps_step p
  generalize (step p).state = q, (step p).result = answer at hsteps
  cases hsteps with
  | halted _ => exact h
  | stopped _ hs =>
    obtain ⟨hlow, hhigh⟩ := Machine.nextPc_bounds h.machine
    exact ⟨h.machine.going hlow hhigh rfl rfl, by simp [stopped]⟩
  | passed _ hw _ _ =>
    obtain ⟨hlow, hhigh⟩ := Machine.nextPc_bounds h.machine
    rw [Machine.nextPc_of_hasWord hw] at hlow hhigh
    exact ⟨h.machine.going hlow hhigh rfl rfl, h.halted_iff⟩
  | carriedOut _ hw _ _ hm =>
    refine ⟨?_, h.halted_iff⟩
    rw [carriedOut, hm]
    exact Manual.bounded_after h.machine hw.2 (p.machine.register Machine.jumpRegister).toNat_lt

end Processor

namespace Machine

variable {m : Machine}

theorem bounded_initial : initial.view.Bounded where
  pc_nonneg := Int.natCast_nonneg _
  pc_le := show (startAddress : Int) ≤ maxAddress by decide
  slots_nonneg k := Int.le_of_eq (CallStack.slot_empty k).symm
  slots_le k := Int.le_trans (Int.le_of_eq (CallStack.slot_empty k)) (by decide)
  at_rest := rfl

theorem bounded_reset (h : m.view.Bounded) : m.reset.view.Bounded :=
  bounded_initial.of_eq rfl rfl h.at_rest

/-! ### What the host can ask of a machine -/

open ChipEight.Action (Preserves)

variable {α : Type}

/-- Neither the memory nor the screen or the keypad has bounds that its type leaves open. -/
theorem bounded_onMemory (x : Action Memory α) : Preserves (·.view.Bounded) (onMemory x) :=
  fun _ h ↦ h.of_eq rfl rfl rfl

theorem bounded_onScreen (x : Action Screen α) : Preserves (·.view.Bounded) (onScreen x) :=
  fun _ h ↦ h.of_eq rfl rfl rfl

theorem bounded_onKeypad (x : Action Keypad α) : Preserves (·.view.Bounded) (onKeypad x) :=
  fun _ h ↦ h.of_eq rfl rfl rfl

theorem bounded_load (program font : Bytes) : Preserves (·.view.Bounded) (load program font) := by
  intro m h
  obtain ⟨e, hload⟩ | hload := m.load_cases program font
  · rw [hload]
    exact h
  · rw [hload]
    exact (bounded_reset h).of_eq rfl rfl rfl

theorem bounded_drawSprite (x y : Int) (height : Nat) (address : Int) :
    Preserves (·.view.Bounded) (drawSprite x y height address) :=
  (bounded_onMemory _).bind fun _ ↦ (bounded_onScreen _).bind fun _ ↦
    (Preserves.modify fun _ h ↦ h.of_eq rfl rfl rfl).bind fun _ ↦ .pure _

theorem bounded_pop : Preserves (·.view.Bounded) pop := by
  intro m h
  cases hpop : m.stack.closed with
  | error cause =>
    rw [pop_of_not_closed hpop]
    exact h
  | ok r =>
    rw [pop_of_closed hpop]
    exact h.of_eq rfl (CallStack.slot_closed hpop).2 rfl

theorem bounded_fetch : Preserves (·.view.Bounded) fetch := by
  intro m h
  obtain ⟨hlow, hhigh⟩ := nextPc_bounds h
  rw [state_fetch]
  exact h.going hlow hhigh rfl h.at_rest

end Machine

end ChipEight
