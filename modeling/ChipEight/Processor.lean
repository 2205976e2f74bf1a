import ChipEight.Processor.Execute

/-!
# The processor

`Processor.step` carries out the instruction at the program counter. A fault halts the processor,
which then does nothing until it is reset. In debug mode an unknown word is noted and skipped.
-/

namespace ChipEight

namespace Processor

/-- Passes over a word that stands for no instruction, or stops at it. -/
def unknownWord (w : Word) (address : Int) : Action Processor (Option Instruction) := do
  let fault : Fault := ⟨.unknownOpcode w.toNat, some address⟩
  if (← Action.gets debug) then
    Action.note (.skipped fault)
    pure none
  else Action.fail (.fault fault)

/-- Looks at the keys, fetches the word at the program counter and carries out the instruction that
it stands for. -/
def cycle (address : Int) : Action Processor (Option Instruction) := do
  Action.modify fun p ↦ { p with keys := p.machine.keypad.toList }
  let w ← onMachine Machine.fetch
  match Instruction.ofWord? w with
  | none => unknownWord w address
  | some i =>
    Action.note (.dispatched address i)
    execute i
    pure (some i)

/-- Halts at a fault, which gets the address of the instruction unless it has one. A refusal is no
matter of the processor and goes on to the host. -/
def halt (address : Int) : Error → Action Processor (Option Instruction)
  | .fault fault => do
    let fault := { fault with address := fault.address.or (some address) }
    Action.modify fun p ↦ { p with isHalted := true, fault := some fault }
    Action.note (.halted fault)
    Action.fail (.fault fault)
  | .refusal refusal => Action.fail (.refusal refusal)

/-- Carries out the instruction at the program counter and gives it, or nothing if there was none to
carry out. The machine is busy while it does so. -/
def step : Action Processor (Option Instruction) := do
  if (← Action.gets isHalted) then pure none
  else
    let address ← Action.gets (·.machine.pc)
    change fun m ↦ { m with busy := true }
    ((cycle address).recover (halt address)).afterwards fun p ↦
      { p with machine := { p.machine with busy := false } }

end Processor

end ChipEight
