import ChipEight.Numeral.DecimalDigits
import ChipEight.Opcode
import ChipEight.Processor.State

/-!
# What each operation does

`Processor.execute` carries out one instruction on a machine whose program counter already stands
behind it. An instruction with several effects has them one after the other, so one that fails in
between would leave the earlier ones behind.
-/

namespace ChipEight

namespace Processor

/-- Stores a byte in decimal. A number that is no byte is refused. -/
def storeDecimal (address value : Int) : Action Processor Unit :=
  match DecimalDigits.ofInt? value with
  | some digits => onMachine (Machine.writeBlock address digits.toBytes)
  | none => Action.fail (.refusal (.notAByte value))

/-- Moves the index register behind the registers up to `x`, where that is the custom. -/
def passRegisters (x : Nibble) : Action Processor Unit := do
  if (← Action.gets legacyStore) then change (·.passRegisters x) else pure ()

/-- The effects of an instruction whose operands are read from `m`. -/
def operation (i : Instruction) (m : Machine) : Action Processor Unit := do
  let w := i.word
  let vx := m.register w.x
  let vy := m.register w.y
  match i.op with
  | .clearScreen => change (·.clearScreen)
  | .ret =>
    let address ← onMachine Machine.pop
    change (·.jumpTo address)
  | .jump => change (·.jumpTo w.nnn)
  | .call =>
    onMachine (Machine.push m.pc)
    change (·.jumpTo w.nnn)
  | .skipIfByte => change (·.skipIf (vx == w.nn))
  | .skipUnlessByte => change (·.skipIf (vx != w.nn))
  | .skipIfEqual => change (·.skipIf (vx == vy))
  | .skipUnlessEqual => change (·.skipIf (vx != vy))
  | .setByte => change (·.setRegister w.x w.nn)
  | .addByte => change (·.setRegister w.x (vx + w.nn))
  | .copy => change (·.setRegister w.x vy)
  | .union => change (·.setRegister w.x (vx ||| vy))
  | .meet => change (·.setRegister w.x (vx &&& vy))
  | .difference => change (·.setRegister w.x (vx ^^^ vy))
  | .add => change (·.setWithFlag w.x (vx + vy) (vx.toNat + vy.toNat > 0xFF))
  | .subtract => change (·.setWithFlag w.x (vx - vy) (vx ≥ vy))
  | .shiftRight => change (·.setWithFlag w.x (vx >>> 1) (vx &&& 0x01 != 0))
  | .subtractFrom => change (·.setWithFlag w.x (vy - vx) (vy ≥ vx))
  | .shiftLeft => change (·.setWithFlag w.x (vx <<< 1) (vx &&& 0x80 != 0))
  | .setIndex => change (·.pointTo (UInt16.ofNat w.nnn))
  | .jumpFrom =>
    change (·.jumpTo (Machine.wrapAddress ((m.register Machine.jumpRegister).toNat + w.nnn)))
  | .random =>
    let byte ← drawByte
    change (·.setRegister w.x (byte &&& w.nn))
  | .draw =>
    let collision ← onMachine (Machine.drawSprite vx.toNat vy.toNat w.n m.index.toNat)
    change (·.setRegister Machine.flagRegister (if collision then 1 else 0))
  | .skipIfPressed =>
    let down ← keyDown vx.toNat
    change (·.skipIf down)
  | .skipUnlessPressed =>
    let down ← keyDown vx.toNat
    change (·.skipIf !down)
  | .readDelay => change (·.setRegister w.x m.delay)
  | .awaitKey =>
    let down ← keyDown vx.toNat
    if down then pure () else change (·.moveBy (-2))
  | .setDelay => change fun m ↦ { m with delay := vx }
  | .setSound => change fun m ↦ { m with sound := vx }
  | .addIndex => change fun m ↦ m.pointTo (m.index + vx.toUInt16)
  | .pointToGlyph => change (·.pointTo (UInt16.ofNat (fontAddress + vx.toNat * glyphSize)))
  | .storeDecimal => storeDecimal m.index.toNat vx.toNat
  | .storeRegisters =>
    onMachine (Machine.writeBlock m.index.toNat (m.registersUpTo w.x))
    passRegisters w.x
  | .loadRegisters =>
    let values ← onMachine (Machine.readBlock m.index.toNat (w.x.val + 1 : Nat))
    change (·.setRegisters values)
    passRegisters w.x

/-- Carries out an instruction. -/
def execute (i : Instruction) : Action Processor Unit := do operation i (← Action.gets machine)

theorem execute_apply (i : Instruction) (p : Processor) :
    execute i p = operation i p.machine p := rfl

@[simp] theorem passRegisters_apply (x : Nibble) (p : Processor) :
    passRegisters x p =
      ⟨{ p with machine := if p.legacyStore then p.machine.passRegisters x else p.machine },
        .ok (), []⟩ := by
  rw [passRegisters, Action.bind_of_ok rfl]
  simp only [Action.gets_apply]
  split
  · rfl
  · rfl

/-- A byte has its digits. -/
theorem storeDecimal_eq (address : Int) (value : UInt8) :
    storeDecimal address value.toNat =
      onMachine (Machine.writeBlock address (DecimalDigits.ofByte value).toBytes) := by
  have h : DecimalDigits.ofInt? value.toNat = some (DecimalDigits.ofByte value) := by
    have := value.toNat_lt
    simp only [DecimalDigits.ofInt?, Int.toNat_natCast, UInt8.ofNat_toNat]
    rw [if_pos (by omega)]
  simp only [storeDecimal, h]

end Processor

end ChipEight
