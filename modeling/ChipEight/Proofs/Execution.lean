import ChipEight.Processor
import ChipEight.Proofs.Manual
import ChipEight.Proofs.Stack
import Mathlib.Data.Nat.Bitwise

/-!
# Instructions do what the manual says

An instruction that meets an obstacle fails with its cause and leaves nothing behind, although it
has its effects one after the other: in each of them what can fail comes first.  Any other
instruction succeeds, and the machine in numbers is then what the manual says.
-/

namespace ChipEight

open Manual

namespace Processor

variable {p : Processor} {w : Word}

/-! ## The operations that can fail -/

theorem execute_ret {address : Int} {stack : CallStack}
    (h : p.machine.stack.closed = .ok (address, stack)) :
    execute ⟨.ret, w⟩ p =
      ⟨{ p with machine := { p.machine with stack := stack, pc := address } }, .ok (), []⟩ := by
  rw [execute_apply]
  exact onMachine_bind_of_ok (Machine.pop_of_closed h) _

theorem execute_call {stack : CallStack} (h : p.machine.stack.opened p.machine.pc = .ok stack) :
    execute ⟨.call, w⟩ p =
      ⟨{ p with machine := { p.machine with stack := stack, pc := w.nnn } }, .ok (), []⟩ := by
  rw [execute_apply]
  exact onMachine_bind_of_ok (Machine.push_of_opened h) _

/-- The screen with a sprite drawn from memory, and whether it collides with what was lit. -/
def drawn (m : Machine) (w : Word) : Screen × Bool :=
  m.screen.draw (m.memory.slice m.index.toNat w.n) (m.register w.x).toNat (m.register w.y).toNat

theorem execute_awaitKey {down : Bool}
    (h : p.keys[(p.machine.register w.x).toNat]? = some down) :
    execute ⟨.awaitKey, w⟩ p =
      ⟨{ p with machine := if down then p.machine else p.machine.moveBy (-2) }, .ok (), []⟩ := by
  rw [execute_apply]
  refine (keyDown_bind_of_some h _).trans ?_
  cases down with
  | true => rfl
  | false => rfl

theorem execute_draw (h : Memory.Contains p.machine.index.toNat w.n.val) :
    execute ⟨.draw, w⟩ p =
      let m := { p.machine with screen := (drawn p.machine w).1, redraw := true }
      ⟨{ p with
          machine := m.setRegister Machine.flagRegister (if (drawn p.machine w).2 then 1 else 0) },
        .ok (), []⟩ := by
  rw [execute_apply]
  exact onMachine_bind_of_ok (Machine.drawSprite_of_contains _ h) _

theorem execute_storeDecimal (h : Memory.Contains p.machine.index.toNat (3 : Nat)) :
    execute ⟨.storeDecimal, w⟩ p =
      let digits := (DecimalDigits.ofByte (p.machine.register w.x)).toBytes
      let memory := p.machine.memory.splice p.machine.index.toNat digits
      ⟨{ p with machine := { p.machine with memory := memory } }, .ok (), []⟩ := by
  rw [execute_apply]
  simp only [operation, storeDecimal_eq]
  exact onMachine_of_ok (Machine.writeBlock_of_contains _ h)

theorem execute_storeRegisters (h : Memory.Contains p.machine.index.toNat (w.x.val + 1 : Nat)) :
    execute ⟨.storeRegisters, w⟩ p =
      let memory := p.machine.memory.splice p.machine.index.toNat (p.machine.registersUpTo w.x)
      passRegisters w.x { p with machine := { p.machine with memory := memory } } := by
  rw [execute_apply]
  rw [← Machine.length_registersUpTo p.machine w.x] at h
  exact onMachine_bind_of_ok (Machine.writeBlock_of_contains _ h) _

theorem execute_loadRegisters (h : Memory.Contains p.machine.index.toNat (w.x.val + 1 : Nat)) :
    execute ⟨.loadRegisters, w⟩ p =
      let values := p.machine.memory.slice p.machine.index.toNat (w.x.val + 1)
      passRegisters w.x { p with machine := p.machine.setRegisters values } := by
  have hread := Machine.readBlock_of_contains p.machine h
  rw [Memory.span_natCast, Int.toNat_natCast] at hread
  rw [execute_apply]
  exact (onMachine_bind_of_ok hread _).trans (change_bind _ _ _)

/-! ## Obstacles -/

/-- The processor when it has fetched a word and is about to carry out its instruction. -/
def fetched (p : Processor) : Processor :=
  { p with
    machine := { p.machine with pc := p.machine.pc + 2, busy := true }
    keys := p.machine.keypad.toList }

/-- No key has the number that a register holds. -/
theorem keys_fetched_eq_none {key : Nat} (h : keyCount ≤ key) :
    p.fetched.keys[key]? = none :=
  List.getElem?_eq_none (by simpa [fetched] using h)

/-- An instruction that meets an obstacle leaves nothing behind. -/
theorem execute_of_obstacle {i : Instruction} {cause : Cause}
    (h : Obstacle p.machine.view i cause) :
    execute i p.fetched = ⟨p.fetched, .error (.ofCause cause), []⟩ := by
  rw [execute_apply]
  cases h with
  | underflow h =>
    have hpop := CallStack.closed_eq_error_iff.2 ⟨h, rfl⟩
    exact onMachine_bind_of_error (p := p.fetched) (Machine.pop_of_not_closed hpop) _
  | overflow h =>
    have hpush : p.machine.stack.opened p.fetched.machine.pc = .error CallStack.overflow :=
      CallStack.opened_eq_error_iff.2 ⟨h, rfl⟩
    exact onMachine_bind_of_error (p := p.fetched) (Machine.push_of_not_opened hpush) _
  | key hop h =>
    have hkey := keys_fetched_eq_none (p := p) h
    obtain rfl | rfl | rfl := hop
    · exact keyDown_bind_of_none hkey _
    · exact keyDown_bind_of_none hkey _
    · exact keyDown_bind_of_none hkey _
  | sprite hn h =>
    exact onMachine_bind_of_error
      (Machine.drawSprite_of_not_contains _ (Memory.not_contains_natCast hn h)) _
  | digits h =>
    have hm := Memory.not_contains_natCast (n := 3) (by decide) h
    have hi : (p.machine.index.toNat : Int) + (3 : Nat) - 1 = p.machine.index.toNat + 2 := by omega
    simp only [operation, storeDecimal_eq]
    exact hi ▸ onMachine_of_error (Machine.writeBlock_of_not_contains _ hm)
  | @registers op w hop h =>
    have hm : ¬ Memory.Contains p.machine.index.toNat (w.x.val + 1 : Nat) :=
      Memory.not_contains_natCast (Nat.succ_pos _) h
    have hi : (p.machine.index.toNat : Int) + (w.x.val + 1 : Nat) - 1 =
      p.machine.index.toNat + w.x.val := by omega
    obtain rfl | rfl := hop
    · rw [← Machine.length_registersUpTo p.fetched.machine] at hm
      have hw := Machine.writeBlock_of_not_contains p.fetched.machine hm
      rw [Machine.length_registersUpTo, hi] at hw
      exact onMachine_bind_of_error hw _
    · exact onMachine_bind_of_error (hi ▸ Machine.readBlock_of_not_contains _ hm) _

/-! ## Bytes as numbers -/

theorem toNat_sub_byte (a b : UInt8) : (a - b).toNat = (256 + a.toNat - b.toNat) % 256 := by
  have := b.toNat_lt
  rw [UInt8.toNat_sub]
  omega

theorem toNat_half (a : UInt8) : (a >>> 1).toNat = a.toNat / 2 % 256 := by
  have := a.toNat_lt
  rw [UInt8.toNat_shiftRight]
  simp [Nat.shiftRight_eq_div_pow]
  omega

theorem toNat_double (a : UInt8) : (a <<< 1).toNat = 2 * a.toNat % 256 := by
  rw [UInt8.toNat_shiftLeft]
  simp [Nat.shiftLeft_eq]
  omega

/-- A mask of one bit tells whether that bit is set. -/
theorem and_bit_ne_zero (a : UInt8) {b : UInt8} {k : Nat} (hb : b.toNat = 2 ^ k) :
    (a &&& b != 0) = true ↔ a.toNat / 2 ^ k % 2 = 1 := by
  rw [bne_iff_ne, ne_eq, ← UInt8.toNat_inj, UInt8.toNat_and, hb, Nat.and_two_pow,
    Nat.testBit_eq_decide_div_mod_eq]
  by_cases h : a.toNat / 2 ^ k % 2 = 1
  · simp [h]
  · simp [h]

theorem odd_iff (a : UInt8) : (a &&& 0x01 != 0) = true ↔ a.toNat % 2 = 1 := by
  rw [and_bit_ne_zero a (k := 0) rfl, Nat.pow_zero, Nat.div_one]

theorem high_bit_iff (a : UInt8) : (a &&& 0x80 != 0) = true ↔ 128 ≤ a.toNat := by
  have := a.toNat_lt
  rw [and_bit_ne_zero a (k := 7) rfl]
  omega

/-! ## Effects -/

section Effects

variable (hpc : 0 ≤ p.machine.pc) (hpc' : p.machine.pc + 1 < memorySize)

/-- A register gets a value that is a number. -/
theorem view_put (m : Machine) (x : Nibble) {value : UInt8} {n : Nat} (h : value.toNat = n) :
    (m.setRegister x value).view = m.view.put x n := by
  rw [Machine.view_setRegister, h]

/-- The index register gets an address that is a number. -/
theorem view_pointTo (m : Machine) {address : UInt16} {n : Nat} (h : address.toNat = n) :
    (m.pointTo address).view = { m.view with index := n } := by
  rw [Machine.view_pointTo, h]

/-- The flag register tells whether a condition holds. -/
theorem view_setFlag (m : Machine) {flag : Bool} {condition : Prop} [Decidable condition]
    (hf : flag = true ↔ condition) :
    (m.setRegister Machine.flagRegister (if flag then 1 else 0)).view =
      m.view.put Machine.flagRegister (if condition then 1 else 0) := by
  refine view_put _ _ ?_
  cases flag <;> simp [← hf]

/-- A register gets a result, and the flag register tells whether a condition holds. -/
theorem view_putFlagged (m : Machine) (x : Nibble) {value : UInt8} {flag : Bool} {n : Nat}
    {condition : Prop} [Decidable condition] (h : value.toNat = n % 256)
    (hf : flag = true ↔ condition) :
    (m.setWithFlag x value flag).view = m.view.putFlagged x n condition := by
  rw [Machine.setWithFlag, view_setFlag _ hf, view_put _ _ h]
  rfl

include hpc hpc' in
/-- The next instruction is passed over if a condition holds. -/
theorem view_skipIf {b : Bool} {condition : Prop} [Decidable condition]
    (h : b = true ↔ condition) :
    (p.fetched.machine.skipIf b).view =
      { p.machine.view.skipIf condition with busy := true } := by
  have hmove : p.fetched.machine.moveBy 2 = p.fetched.machine.jumpTo (p.machine.pc + 4) := by
    have he : p.fetched.machine.pc + 2 = p.machine.pc + 4 := by simp only [fetched]; omega
    have hm : (memorySize : Int) = 4096 := rfl
    rw [Machine.moveBy_eq_jumpTo (by omega) (by omega), he]
  cases b with
  | true =>
    rw [Machine.skipIf, if_pos rfl, hmove]
    simp only [View.skipIf, if_pos (h.1 rfl)]
    rfl
  | false =>
    rw [Machine.skipIf, if_neg Bool.false_ne_true, View.skipIf,
      if_neg fun hc ↦ Bool.false_ne_true (h.2 hc)]
    rfl

include hpc hpc' in
/-- The program counter stays where it was as long as the key is up. -/
theorem view_awaitKey (down : Bool) :
    (if down then p.fetched.machine else p.fetched.machine.moveBy (-2)).view =
      { p.machine.view with
        pc := if down then p.machine.pc + 2 else p.machine.pc
        busy := true } := by
  cases down with
  | true => rfl
  | false =>
    have he : p.fetched.machine.pc + -2 = p.machine.pc := by simp only [fetched]; omega
    have hm : (memorySize : Int) = 4096 := rfl
    rw [if_neg Bool.false_ne_true, Machine.moveBy_eq_jumpTo (by omega) (by omega), he]
    rfl

theorem drawn_collides_iff (m : Machine) (w : Word) :
    (drawn m w).2 = true ↔
      m.view.Hits (m.register w.x).toNat (m.register w.y).toNat w.n m.index.toNat :=
  Machine.draw_collides_iff m _ _ _ _

theorem view_drawn (m : Machine) (w : Word) :
    Machine.view { m with screen := (drawn m w).1, redraw := true } =
      m.view.blit (m.register w.x).toNat (m.register w.y).toNat w.n m.index.toNat :=
  Machine.view_draw m _ _ _ _

/-- The digits of a byte, the hundreds first. -/
theorem getElem?_toBytes (b : UInt8) {k : Nat} (h : k < 3) :
    ((DecimalDigits.ofByte b).toBytes[k]?.getD 0).toNat =
      if k = 0 then b.toNat / 100 else if k = 1 then b.toNat / 10 % 10 else b.toNat % 10 := by
  have := b.toNat_lt
  match k with
  | 0 => simp [DecimalDigits.toBytes, DecimalDigits.ofByte]; omega
  | 1 => simp [DecimalDigits.toBytes, DecimalDigits.ofByte]; omega
  | 2 => simp [DecimalDigits.toBytes, DecimalDigits.ofByte]; omega

/-- The registers in their order. -/
theorem getElem?_registersUpTo (m : Machine) {x : Nibble} {k : Nat} (h : k < x.val + 1) :
    (m.registersUpTo x)[k]?.getD 0 = m.register (Nibble.ofNat k) := by
  have hk : k < m.registers.toList.length := by
    rw [Vector.length_toList, registerCount]
    omega
  have hmod : k % 16 = k := Nat.mod_eq_of_lt (by omega)
  rw [Machine.registersUpTo, List.getElem?_take_of_lt h, List.getElem?_eq_getElem hk,
    Option.getD_some, Vector.getElem_toList]
  simp only [Machine.register, Fin.getElem_fin, Nibble.ofNat, hmod]

/-- The index register moves behind the registers, where that is the custom. -/
theorem view_passed (m : Machine) (legacyStore : Bool) (x : Nibble) :
    (if legacyStore then m.passRegisters x else m).view =
      { m.view with
        index := if legacyStore then (m.view.index + (x.val + 1)) % 65536 else m.view.index } := by
  cases legacyStore with
  | true =>
    have hx : x.val + 1 < UInt16.size := by simp only [UInt16.size]; omega
    refine view_pointTo m ?_
    rw [UInt16.toNat_add, UInt16.toNat_ofNat_of_lt' hx]
    rfl
  | false => rfl

/-- The registers up to `x` are written to memory. -/
theorem view_storeRegisters {m n : Machine} {x : Nibble} (legacyStore : Bool)
    (h : Memory.Contains m.index.toNat (x.val + 1 : Nat))
    (hn : n = { m with memory := m.memory.splice m.index.toNat (m.registersUpTo x) }) :
    (if legacyStore then n.passRegisters x else n).view =
      { m.view.fill m.view.index (x.val + 1) fun k ↦ m.view.registers (Nibble.ofNat k) with
        index := if legacyStore then (m.view.index + (x.val + 1)) % 65536 else m.view.index } := by
  rw [← m.length_registersUpTo x] at h
  have hfill := View.fill_congr m.view m.index.toNat
    (f := fun k ↦ ((m.registersUpTo x)[k]?.getD 0).toNat)
    (g := fun k ↦ m.view.registers (Nibble.ofNat k))
    fun k hk ↦ congrArg UInt8.toNat (getElem?_registersUpTo m hk)
  rw [view_passed, hn, Machine.view_splice m h, Machine.length_registersUpTo, hfill]
  rfl

/-- The registers up to `x` are read from memory. -/
theorem view_loadRegisters (m : Machine) (legacyStore : Bool) {n : Machine} {x : Nibble}
    (hn : n = m.setRegisters (m.memory.slice m.index.toNat (x.val + 1))) :
    (if legacyStore then n.passRegisters x else n).view =
      { m.view with
        registers := fun r ↦
          if r ≤ x then m.view.memory (m.view.index + r) else m.view.registers r
        index := if legacyStore then (m.view.index + (x.val + 1)) % 65536 else m.view.index } := by
  rw [view_passed, hn, Machine.view_setRegisters]
  ext : 1
  case registers =>
    funext r
    simp only [Memory.getElem?_slice, Nat.lt_succ_iff, Fin.le_def]
    split
    · rfl
    · rfl
  all_goals rfl

/-- The key of a number below sixteen is known. -/
theorem keys_fetched_eq_some {key : Nat} (h : key < keyCount) :
    p.fetched.keys[key]? = some (p.machine.keypad.isDown key) := by
  simp [fetched, Keypad.toList, Keypad.isDown, h]

/-- The source of random bytes after an instruction. -/
def draws (i : Instruction) (source : Source) : Source :=
  if i.op = .random then source.draw.2 else source

/-- An instruction that asks for a key and is not kept from it asks for one of the sixteen. -/
theorem key_of_clear {op : Opcode} {w : Word}
    (clear : ∀ cause, ¬ Obstacle p.machine.view ⟨op, w⟩ cause)
    (hop : op = .skipIfPressed ∨ op = .skipUnlessPressed ∨ op = .awaitKey) :
    (p.machine.register w.x).toNat < keyCount :=
  Nat.lt_of_not_le fun h ↦ clear _ (.key hop h)

include hpc hpc' in
/-- An instruction that meets no obstacle has the effect that the manual prescribes. -/
theorem execute_of_clear {i : Instruction} (clear : ∀ cause, ¬ Obstacle p.machine.view i cause) :
    ∃ m : Machine,
      execute i p.fetched =
        ⟨{ p.fetched with machine := m, source := draws i p.source }, .ok (), []⟩ ∧
      m.view = { after p.legacyStore i p.source.draw.1 p.machine.view with busy := true } := by
  obtain ⟨op, w⟩ := i
  cases op with
  | clearScreen => exact ⟨_, rfl, Machine.view_clearScreen _⟩
  | ret =>
    have hpop := CallStack.closed_of_pos (Nat.pos_of_ne_zero fun h ↦ clear _ (.underflow h))
    refine ⟨_, execute_ret (p := p.fetched) hpop, ?_⟩
    have hs := (CallStack.slot_closed hpop).2
    simp only [Machine.view, hs, CallStack.depth_closed hpop]
    rfl
  | jump => exact ⟨_, rfl, rfl⟩
  | call =>
    have hlt : p.machine.stack.depth < stackSize :=
      lt_of_le_of_ne p.machine.stack.depth_le fun h ↦ clear _ (.overflow h)
    have hpush := CallStack.opened_of_lt hlt (p.machine.pc + 2)
    refine ⟨_, execute_call (p := p.fetched) hpush, ?_⟩
    have hs := funext (CallStack.slot_opened hpush)
    simp only [Machine.view, hs, CallStack.depth_opened hpush]
    rfl
  | skipIfByte =>
    exact ⟨_, rfl, view_skipIf hpc hpc' (beq_iff_eq.trans UInt8.toNat_inj.symm)⟩
  | skipUnlessByte =>
    exact ⟨_, rfl, view_skipIf hpc hpc' (bne_iff_ne.trans (not_congr UInt8.toNat_inj.symm))⟩
  | skipIfEqual =>
    exact ⟨_, rfl, view_skipIf hpc hpc' (beq_iff_eq.trans UInt8.toNat_inj.symm)⟩
  | skipUnlessEqual =>
    exact ⟨_, rfl, view_skipIf hpc hpc' (bne_iff_ne.trans (not_congr UInt8.toNat_inj.symm))⟩
  | setByte => exact ⟨_, rfl, view_put _ _ rfl⟩
  | addByte => exact ⟨_, rfl, view_put _ _ (UInt8.toNat_add _ _)⟩
  | copy => exact ⟨_, rfl, view_put _ _ rfl⟩
  | union => exact ⟨_, rfl, view_put _ _ (UInt8.toNat_or _ _)⟩
  | meet => exact ⟨_, rfl, view_put _ _ (UInt8.toNat_and _ _)⟩
  | difference => exact ⟨_, rfl, view_put _ _ (UInt8.toNat_xor _ _)⟩
  | add => exact ⟨_, rfl, view_putFlagged _ _ (UInt8.toNat_add _ _) decide_eq_true_iff⟩
  | subtract => exact ⟨_, rfl, view_putFlagged _ _ (toNat_sub_byte _ _) decide_eq_true_iff⟩
  | shiftRight => exact ⟨_, rfl, view_putFlagged _ _ (toNat_half _) (odd_iff _)⟩
  | subtractFrom => exact ⟨_, rfl, view_putFlagged _ _ (toNat_sub_byte _ _) decide_eq_true_iff⟩
  | shiftLeft => exact ⟨_, rfl, view_putFlagged _ _ (toNat_double _) (high_bit_iff _)⟩
  | setIndex =>
    have hlt : w.nnn < UInt16.size := lt_trans w.nnn_lt (by decide)
    exact ⟨_, rfl, view_pointTo _ (UInt16.toNat_ofNat_of_lt hlt)⟩
  | jumpFrom => exact ⟨_, rfl, rfl⟩
  | random => exact ⟨_, rfl, view_put _ _ (UInt8.toNat_and _ _)⟩
  | draw =>
    have hc : Memory.Contains p.machine.index.toNat w.n.val := by
      refine Memory.contains_natCast.2 (Classical.byContradiction fun h ↦ ?_)
      rw [not_or, Nat.not_le] at h
      exact clear _ (.sprite (Nat.pos_of_ne_zero h.1) h.2)
    refine ⟨_, execute_draw (p := p.fetched) hc, ?_⟩
    rw [view_setFlag _ (drawn_collides_iff _ _), view_drawn]
    rfl
  | skipIfPressed =>
    have hk := key_of_clear clear (.inl rfl)
    exact ⟨_, keyDown_bind_of_some (keys_fetched_eq_some hk) _, view_skipIf hpc hpc' Iff.rfl⟩
  | skipUnlessPressed =>
    have hk := key_of_clear clear (.inr (.inl rfl))
    exact ⟨_, keyDown_bind_of_some (keys_fetched_eq_some hk) _,
      view_skipIf hpc hpc' (Bool.not_eq_true' _).to_iff⟩
  | readDelay => exact ⟨_, rfl, view_put _ _ rfl⟩
  | awaitKey =>
    have hk := keys_fetched_eq_some (p := p) (key_of_clear clear (.inr (.inr rfl)))
    exact ⟨_, execute_awaitKey hk, view_awaitKey hpc hpc' _⟩
  | setDelay => exact ⟨_, rfl, rfl⟩
  | setSound => exact ⟨_, rfl, rfl⟩
  | addIndex =>
    refine ⟨_, rfl, view_pointTo _ ?_⟩
    rw [UInt16.toNat_add, UInt8.toNat_toUInt16]
    rfl
  | pointToGlyph =>
    refine ⟨_, rfl, view_pointTo _ ?_⟩
    have hx := (p.machine.register w.x).toNat_lt
    have hlt : fontAddress + (p.machine.register w.x).toNat * glyphSize < UInt16.size := by
      simp only [fontAddress, glyphSize, UInt16.size]
      omega
    refine (UInt16.toNat_ofNat_of_lt hlt).trans ?_
    rw [Nat.mul_comm]
    rfl
  | storeDecimal =>
    have hc : Memory.Contains p.machine.index.toNat (3 : Nat) :=
      Memory.contains_natCast.2 (.inr (Nat.le_of_not_lt fun h ↦ clear _ (.digits h)))
    refine ⟨_, execute_storeDecimal (p := p.fetched) hc, ?_⟩
    refine (Machine.view_splice p.fetched.machine hc).trans ?_
    exact View.fill_congr p.fetched.machine.view _ fun k hk ↦ getElem?_toBytes _ hk
  | storeRegisters =>
    have hc : Memory.Contains p.machine.index.toNat (w.x.val + 1 : Nat) :=
      Memory.contains_natCast.2 (.inr (Nat.le_of_not_lt fun h ↦ clear _ (.registers (.inl rfl) h)))
    exact ⟨_, (execute_storeRegisters (p := p.fetched) hc).trans (passRegisters_apply _ _),
      view_storeRegisters (m := p.fetched.machine) _ hc rfl⟩
  | loadRegisters =>
    have hc : Memory.Contains p.machine.index.toNat (w.x.val + 1 : Nat) :=
      Memory.contains_natCast.2 (.inr (Nat.le_of_not_lt fun h ↦ clear _ (.registers (.inr rfl) h)))
    exact ⟨_, (execute_loadRegisters (p := p.fetched) hc).trans (passRegisters_apply _ _),
      view_loadRegisters p.fetched.machine _ rfl⟩

end Effects

end Processor

end ChipEight
