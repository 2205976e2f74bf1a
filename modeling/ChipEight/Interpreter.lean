import ChipEight.Pacer
import ChipEight.Processor
import ChipEight.Settings

/-!
# The interpreter

A processor and its clocks. A host loads a program, hands over time, and reads the screen, the
timers and the fault. A load is allowed at any time between instructions and sets everything but the
keypad and the source of random bytes to its beginning.
-/

namespace ChipEight

/-- A processor, its clocks, and whether a program has been loaded. -/
structure Interpreter where
  processor : Processor
  pacer : Pacer
  loaded : Bool

namespace Interpreter

/-- A new interpreter that draws its random bytes from the given source. -/
def new (s : Settings) (source : Source) : Except Refusal Interpreter :=
  (Pacer.ofRates s.clockRate s.timerRate).map fun pacer ↦
    ⟨.initial source s.debug s.legacyStore, pacer, false⟩

/-- A new interpreter that seeds its random bytes as the settings say, or with words of the system's
choice. -/
def ofSettings (s : Settings) (entropy : Array UInt32) : Except Refusal Interpreter :=
  new s (.ofSeed s.seed entropy)

/-- The machine. -/
def machine (i : Interpreter) : Machine := i.processor.machine

/-- The interpreter with another machine. -/
def withMachine (i : Interpreter) (m : Machine) : Interpreter :=
  { i with processor := { i.processor with machine := m } }

/-- An action of the machine. -/
def onMachine {α : Type} (x : Action Machine α) : Action Interpreter α :=
  Action.on machine (fun m i ↦ i.withMachine m) x

/-- An action of the processor. -/
def onProcessor {α : Type} (x : Action Processor α) : Action Interpreter α :=
  Action.on processor (fun p i ↦ { i with processor := p }) x

/-- A step of the processor, whether or not a program has been loaded. -/
def stepProcessor : Action Interpreter (Option Instruction) := onProcessor Processor.step

/-- Makes the timer ticks that fall to one instruction. -/
def payTimers (i : Interpreter) : Interpreter :=
  let (pacer, machine) := i.pacer.payTimers i.machine
  { i.withMachine machine with pacer := pacer }

/-- Counts instructions that have run. -/
def countInstructions (n : Nat) (i : Interpreter) : Interpreter :=
  { i with pacer := { i.pacer with instructions := i.pacer.instructions + n } }

/-- Adds time to the account and takes the whole instructions out of it. -/
def accrue (dt : Binary64) : Action Interpreter Nat := fun i ↦
  let (count, pacer) := i.pacer.accrue dt
  ⟨{ i with pacer := pacer }, count.mapError .refusal, []⟩

end Interpreter

/-- An interpreter in the middle of a time step, and how many instructions it has carried out since
the beginning of that step. They are counted when the step is over. -/
structure Batch where
  interpreter : Interpreter
  executed : Nat

namespace Batch

/-- No instruction has been carried out yet. -/
def start (i : Interpreter) : Batch := ⟨i, 0⟩

/-- The interpreter with the instructions of the batch counted. -/
def close (b : Batch) : Interpreter := b.interpreter.countInstructions b.executed

/-- An action of the interpreter. -/
def onInterpreter {α : Type} (x : Action Interpreter α) : Action Batch α :=
  Action.on interpreter (fun i b ↦ { b with interpreter := i }) x

/-- One instruction and the timer ticks that fall to it. A fault leaves the timers alone. -/
def turn : Action Batch Unit := do
  let _ ← onInterpreter Interpreter.stepProcessor
  Action.modify fun b ↦ { b with executed := b.executed + 1 }
  onInterpreter (Action.modify Interpreter.payTimers)

end Batch

namespace Interpreter

/-- Carries out `pending` instructions and gives their number. The instructions that have been
carried out are counted at the end, also where a fault has put one to the batch. -/
def batch (pending : Nat) : Action Interpreter Nat :=
  Action.on Batch.start (fun b _ ↦ b.close) do
    Action.replicate pending Batch.turn
    Action.gets Batch.executed

/-- Spends a time step on instructions and gives their number. Time does not run backwards, and on
a halted processor it does not run at all. -/
def advance (dt : Binary64) : Action Interpreter Nat := do
  if dt.isNegative then Action.fail (.refusal (.negativeTime dt))
  else if (← Action.gets fun i ↦ i.processor.isHalted) then pure 0
  else batch (← accrue dt)

/-- Loads a program into the machine alone. -/
def loadMachine (program font : Bytes) : Action Interpreter Unit :=
  onMachine (Machine.load program font)

/-- Forgets the fault. -/
def resetProcessor (i : Interpreter) : Interpreter := { i with processor := i.processor.reset }

/-- Sets both clocks to zero. -/
def resetPacer (i : Interpreter) : Interpreter := { i with pacer := i.pacer.reset }

/-- Loads a program and starts afresh. -/
def load (program font : Bytes) : Action Interpreter Unit := do
  loadMachine program font
  Action.modify fun i ↦ { i.resetProcessor.resetPacer with loaded := true }

/-- Spends a time step, if a program has been loaded. -/
def tick (dt : Binary64) : Action Interpreter Nat := do
  if (← Action.gets loaded) then advance dt else pure 0

/-- Carries out one instruction whatever the clocks say, if a program has been loaded. -/
def step : Action Interpreter (Option Instruction) := do
  if (← Action.gets loaded) then stepProcessor else pure none

/-- Whether the screen has been drawn on since this was last asked. -/
def consumeRedraw : Action Interpreter Bool := fun i ↦
  ⟨i.withMachine { i.machine with redraw := false }, .ok i.machine.redraw, []⟩

end Interpreter

end ChipEight
