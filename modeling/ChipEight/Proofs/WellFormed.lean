import ChipEight.Proofs.Bounds
import ChipEight.Proofs.Runs

/-!
# What every run preserves

A host that puts no address of its own choice into the machine cannot bring an interpreter out of
bounds: from a new interpreter on, all sizes and ranges are kept by every command, whether or not it
succeeds, and by every turn in the middle of a time step.
-/

namespace ChipEight

/-- Commands by which the host puts no return address and no field of its own choice into the
machine. -/
def Command.Plain : Command → Prop
  | .push _ | .assign _ => False
  | _ => True

namespace Interpreter

open ChipEight.Action (Preserves)

variable {i : Interpreter}

/-- The bounds of an interpreter are those of its processor. -/
def Bounded (i : Interpreter) : Prop := i.processor.Bounded

theorem Bounded.withMachine {m : Machine} (h : i.Bounded) (hm : m.view.Bounded) :
    (i.withMachine m).Bounded := ⟨hm, h.halted_iff⟩

theorem bounded_new {s : Settings} {source : Source} (h : new s source = .ok i) : i.Bounded := by
  obtain ⟨_, -, rfl⟩ := eq_of_new h
  exact ⟨Machine.bounded_initial, by simp [Processor.initial]⟩

/-! ## What keeps the bounds -/

theorem preserves_stepProcessor : Preserves Bounded stepProcessor :=
  fun _ h ↦ Processor.bounded_step h

theorem preserves_step : Preserves Bounded step :=
  (Preserves.gets _).bind fun _ ↦ preserves_stepProcessor.ite (.pure _)

theorem bounded_endTurn (h : i.Bounded) : i.endTurn.Bounded := by
  have hm : i.endTurn.machine.view.Bounded :=
    invariant_endTurn (P := fun m ↦ m.view.Bounded) (fun _ hm ↦ hm.of_eq rfl rfl rfl) h.machine
  exact h.withMachine hm

theorem preserves_turn : Preserves Bounded turn :=
  invariant_turn preserves_stepProcessor fun _ ↦ bounded_endTurn

/-- The account of time is no matter of the machine. -/
theorem preserves_accrue (dt : Binary64) : Preserves Bounded (accrue dt) := fun _ h ↦ h

theorem preserves_advance (dt : Binary64) : Preserves Bounded (advance dt) :=
  invariant_advance preserves_turn (preserves_accrue dt)

theorem preserves_tick (dt : Binary64) : Preserves Bounded (tick dt) :=
  invariant_tick (preserves_advance dt)

/-- What keeps the bounds of the machine keeps those of the interpreter. -/
theorem preserves_onMachine {α : Type} {x : Action Machine α}
    (hx : Preserves (·.view.Bounded) x) : Preserves Bounded (onMachine x) :=
  hx.on (fun _ h ↦ h.machine) fun _ _ h hm ↦ h.withMachine hm

theorem preserves_ask {α : Type} {reply : α → Reply} {x : Action Machine α}
    (hx : Preserves (·.view.Bounded) x) : Preserves Bounded (ask reply x) :=
  (preserves_onMachine hx).map reply

theorem preserves_load (program font : Bytes) : Preserves Bounded (load program font) := by
  refine (preserves_onMachine (Machine.bounded_load program font)).bind fun _ ↦ .modify ?_
  intro i h
  exact ⟨h.machine, by simp [resetPacer, resetProcessor, Processor.reset]⟩

/-- A plain command keeps the bounds. -/
theorem preserves_perform {c : Command} (hc : c.Plain) : Preserves Bounded (perform c) := by
  cases c with
  | load program font => exact (preserves_load program font).map _
  | loadMachine program font =>
    exact (preserves_onMachine (Machine.bounded_load program font)).map _
  | step => exact preserves_step.map _
  | stepProcessor => exact preserves_stepProcessor.map _
  | runProcessor count =>
    exact ((preserves_stepProcessor.bind fun _ ↦ .pure _).replicate count).bind fun _ ↦ .pure _
  | tick dt => exact (preserves_tick dt).map _
  | advance dt => exact (preserves_advance dt).map _
  | consumeRedraw => exact fun _ h ↦ h.withMachine (h.machine.of_eq rfl rfl rfl)
  | resetProcessor =>
    exact fun _ h ↦ ⟨h.machine, by simp [resetProcessor, Processor.reset, perform]⟩
  | resetPacer => exact fun _ h ↦ h
  | resetMachine => exact preserves_ask (.modify fun _ ↦ Machine.bounded_reset)
  | read address => exact preserves_ask (Machine.bounded_onMemory _)
  | write address value => exact preserves_ask (Machine.bounded_onMemory _)
  | readBlock address count => exact preserves_ask (Machine.bounded_onMemory _)
  | writeBlock address data => exact preserves_ask (Machine.bounded_onMemory _)
  | push address => exact hc.elim
  | pop => exact preserves_ask Machine.bounded_pop
  | countDown => exact preserves_ask (.modify fun _ h ↦ h.of_eq rfl rfl rfl)
  | clearScreen => exact preserves_ask (.modify fun _ h ↦ h.of_eq rfl rfl rfl)
  | pixel x y => exact preserves_ask (Machine.bounded_onScreen _)
  | fetch => exact preserves_ask Machine.bounded_fetch
  | drawSprite x y height address =>
    exact preserves_ask (Machine.bounded_drawSprite x y height address)
  | assign assignment => exact hc.elim
  | setKey key down => exact preserves_ask (Machine.bounded_onKeypad _)
  | isPressed key => exact preserves_ask (Machine.bounded_onKeypad _)
  | setKeys states => exact preserves_ask (Machine.bounded_onKeypad _)
  | releaseKeys => exact preserves_ask (Machine.bounded_onKeypad _)

/-! ## What the bounds mean -/

/-- Every part of an interpreter has its size, and every value is in its range. -/
structure WellFormed (i : Interpreter) : Prop where
  memory : i.machine.memory.bytes.toList.length = 4096
  registers : i.machine.registers.toList.length = 16
  index : i.machine.index.toNat ≤ 0xFFFF
  pc : 0 ≤ i.machine.pc ∧ i.machine.pc ≤ 0x10FE
  slots : i.machine.stack.slots.toList.length = 128
  addresses : ∀ a ∈ i.machine.stack.slots.toList, 0 ≤ a ∧ a ≤ 0x1000
  depth : i.machine.stack.depth ≤ 128
  timers : i.machine.delay.toNat ≤ 255 ∧ i.machine.sound.toNat ≤ 255
  cells : i.machine.screen.cells.flatten.length = 2048
  pixels : ∀ x y : Int, 0 ≤ x → x < 64 → 0 ≤ y → y < 32 →
    ∃ b : UInt8, (perform (.pixel x y) i).result = .ok (.byte b) ∧ (b = 0 ∨ b = 1)
  keys : i.machine.keypad.toList.length = 16
  at_rest : i.machine.busy = false
  halted_iff : i.processor.isHalted = true ↔ i.processor.fault.isSome

/-- The pixels of the screen, as the host reads them. -/
theorem result_pixel {x y : Int} (hx : 0 ≤ x ∧ x < 64) (hy : 0 ≤ y ∧ y < 32) :
    (perform (.pixel x y) i).result =
      .ok (.byte (if i.machine.screen.isLit x.toNat y.toNat then 1 else 0)) := by
  have hp := Machine.pixel_of_inside i.machine ⟨hx.1, hx.2, hy.1, hy.2⟩
  rw [perform, ask_of_ok hp]

/-- The two bounds are all that the types leave open. -/
theorem Bounded.wellFormed (h : i.Bounded) : i.WellFormed where
  memory := Vector.length_toList ..
  registers := Vector.length_toList ..
  index := Nat.le_of_lt_succ i.machine.index.toNat_lt
  pc := ⟨h.machine.pc_nonneg, h.machine.pc_le⟩
  slots := Vector.length_toList ..
  addresses a ha := by
    obtain ⟨k, hk, rfl⟩ := List.getElem_of_mem ha
    have hslot : i.machine.stack.slots.toList[k] = i.machine.stack.slot k := by
      simp only [Vector.length_toList] at hk
      simp [CallStack.slot, Vector.getElem?_eq_getElem hk]
    rw [hslot]
    exact ⟨h.machine.slots_nonneg k, h.machine.slots_le k⟩
  depth := i.machine.stack.depth_le
  timers := ⟨Nat.le_of_lt_succ i.machine.delay.toNat_lt, Nat.le_of_lt_succ i.machine.sound.toNat_lt⟩
  cells := Screen.length_flatten_cells _
  pixels x y hx hx' hy hy' := by
    refine ⟨_, result_pixel ⟨hx, hx'⟩ ⟨hy, hy'⟩, ?_⟩
    split
    · exact .inr rfl
    · exact .inl rfl
  keys := Keypad.length_toList _
  at_rest := h.machine.at_rest
  halted_iff := h.halted_iff

/-- Within the bounds the program counter never needs to be cut down to sixteen bits: neither behind
a word that has been fetched, nor where that word lets execution go on. -/
theorem Bounded.pc_of_fetch (h : i.Bounded) {w : Word} {m : Machine}
    (hm : Machine.fetch i.machine = ⟨m, .ok w, []⟩) :
    m.pc = i.machine.pc + 2 ∧ (m.skipIf true).pc = m.pc + 2 ∧ (m.moveBy (-2)).pc = m.pc - 2 ∧
      Machine.wrapAddress ((m.register Machine.jumpRegister).toNat + w.nnn) =
        (m.register Machine.jumpRegister).toNat + w.nnn := by
  have hlow : 0 ≤ i.machine.pc := h.machine.pc_nonneg
  obtain ⟨hw, -⟩ := Machine.fetch_eq_ok_iff.1 (congrArg Outcome.result hm)
  obtain rfl : _ = m := congrArg Outcome.state ((Machine.fetch_of_hasWord hw).symm.trans hm)
  obtain ⟨-, hhigh⟩ := hw
  have hmemory : (memorySize : Int) = 4096 := rfl
  refine ⟨rfl, ?_, ?_, ?_⟩
  · have hskip : 0 ≤ i.machine.pc + 2 + 2 ∧ i.machine.pc + 2 + 2 < 0x10000 := by omega
    exact Int.emod_eq_of_lt hskip.1 hskip.2
  · have hback : 0 ≤ i.machine.pc + 2 + -2 ∧ i.machine.pc + 2 + -2 < 0x10000 := by omega
    exact Int.emod_eq_of_lt hback.1 hback.2
  · have hx := (i.machine.register Machine.jumpRegister).toNat_lt
    have hn := w.nnn_lt
    have hjump : ((i.machine.register Machine.jumpRegister).toNat : Int) + w.nnn < 0x10000 := by
      omega
    exact Int.emod_eq_of_lt (by omega) hjump

/-- At the end of memory execution comes to a halt. -/
theorem result_stepProcessor_of_end (running : i.processor.isHalted = false)
    (hpc : memorySize ≤ i.machine.pc + 1) :
    (stepProcessor i).result = .error (.fault
      ⟨.outOfBounds .memory (max i.machine.pc memorySize), some i.machine.pc⟩) := by
  have hs : i.processor.Stops (.outOfBounds .memory (max i.machine.pc memorySize)) := by
    by_cases hp : memorySize ≤ i.machine.pc
    · rw [Int.max_eq_left hp]
      exact .outside (.inr hp)
    · rw [Int.max_eq_right (Int.le_of_not_le hp)]
      exact .straddling (show i.machine.pc + 1 = memorySize by omega)
  obtain ⟨log, hstep⟩ := Processor.step_of_stops running hs
  exact congrArg Outcome.result hstep

/-- Whatever plain commands a host gives to a new interpreter, every part of it keeps its size and
every value its range, also in the middle of a time step.  In particular no address is ever cut down
to sixteen bits, and execution does not get past the end of memory. -/
theorem wellFormed_performAll {s : Settings} {source : Source} (h : new s source = .ok i)
    {commands : List Command} (plain : ∀ c ∈ commands, c.Plain) :
    (performAll commands i).WellFormed ∧
    ∀ dt n, let j := (partway dt n (performAll commands i)).state.interpreter
      j.WellFormed ∧
      (∀ w m, Machine.fetch j.machine = ⟨m, .ok w, []⟩ →
        m.pc = j.machine.pc + 2 ∧ (m.skipIf true).pc = m.pc + 2 ∧ (m.moveBy (-2)).pc = m.pc - 2 ∧
          Machine.wrapAddress ((m.register Machine.jumpRegister).toNat + w.nnn) =
            (m.register Machine.jumpRegister).toNat + w.nnn) ∧
      (j.processor.isHalted = false → memorySize ≤ j.machine.pc + 1 →
        (stepProcessor j).result = .error (.fault
          ⟨.outOfBounds .memory (max j.machine.pc memorySize), some j.machine.pc⟩)) := by
  have hb : (performAll commands i).Bounded :=
    performAll_invariant (fun _ ↦ preserves_perform) plain (bounded_new h)
  refine ⟨hb.wellFormed, ?_⟩
  intro dt n j
  have hj : j.Bounded := invariant_partway preserves_turn (preserves_accrue dt) n hb
  exact ⟨hj.wellFormed, fun _ _ ↦ hj.pc_of_fetch, result_stepProcessor_of_end⟩

/-- Loads, jumps, failing requests and time that is no number do no harm. -/
theorem wellFormed_after_commands :
    ∃ i, new {} default = .ok i ∧
      (performAll [.load [0xBF, 0xFF] builtInFont, .step, .pop, .write (-1) 7, .advance .nan]
        i).WellFormed := by
  obtain ⟨i, hi⟩ : ∃ i, new {} default = .ok i := ⟨_, rfl⟩
  refine ⟨i, hi, (wellFormed_performAll hi ?_).1⟩
  simp only [List.forall_mem_cons]
  exact ⟨trivial, trivial, trivial, trivial, trivial, fun _ h ↦ nomatch h⟩

end Interpreter

end ChipEight
