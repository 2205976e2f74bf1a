import ChipEight.Interpreter

/-!
# Commands

All that a host can ask of an interpreter, as data. `Interpreter.perform` carries out one command.
-/

namespace ChipEight

/-- A value that a host puts into a field of the machine. -/
inductive Assignment where
  | register (x : Nibble) (value : UInt8)
  | index (value : UInt16)
  | pc (address : Int)
  | delay (value : UInt8)
  | sound (value : UInt8)
  | busy (value : Bool)
  | redraw (value : Bool)
deriving DecidableEq, Repr

/-- The machine with a field replaced. -/
def Machine.assign (m : Machine) : Assignment → Machine
  | .register x value => m.setRegister x value
  | .index value => { m with index := value }
  | .pc address => { m with pc := address }
  | .delay value => { m with delay := value }
  | .sound value => { m with sound := value }
  | .busy value => { m with busy := value }
  | .redraw value => { m with redraw := value }

/-- A request of the host. -/
inductive Command where
  | load (program font : Bytes)
  | loadMachine (program font : Bytes)
  | step
  | stepProcessor
  | runProcessor (count : Nat)
  | tick (dt : Binary64)
  | advance (dt : Binary64)
  | consumeRedraw
  | resetProcessor
  | resetPacer
  | resetMachine
  | read (address : Int)
  | write (address value : Int)
  | readBlock (address count : Int)
  | writeBlock (address : Int) (data : Bytes)
  | push (address : Int)
  | pop
  | countDown
  | clearScreen
  | pixel (x y : Int)
  | fetch
  | drawSprite (x y : Int) (height : Nat) (address : Int)
  | assign (assignment : Assignment)
  | setKey (key : Int) (down : Bool)
  | isPressed (key : Int)
  | setKeys (states : List Bool)
  | releaseKeys
deriving DecidableEq

/-- The answer to a request. -/
inductive Reply where
  | done
  | flag (value : Bool)
  | byte (value : UInt8)
  | bytes (values : Bytes)
  | address (value : Int)
  | count (value : Nat)
  | word (value : Word)
  | instruction (value : Option Instruction)
deriving DecidableEq

namespace Interpreter

/-- A request to the machine, with its answer put into the form of a reply. -/
def ask {α : Type} (reply : α → Reply) (x : Action Machine α) : Action Interpreter Reply :=
  reply <$> onMachine x

/-- A request to the machine that has no answer. -/
def request (x : Action Machine Unit) : Action Interpreter Reply := ask (fun _ ↦ .done) x

/-- Carries out a command. -/
def perform : Command → Action Interpreter Reply
  | .load program font => (fun _ ↦ .done) <$> load program font
  | .loadMachine program font => (fun _ ↦ .done) <$> loadMachine program font
  | .step => .instruction <$> step
  | .stepProcessor => .instruction <$> stepProcessor
  | .runProcessor count => do
    Action.replicate count (do let _ ← stepProcessor)
    pure (.count count)
  | .tick dt => .count <$> tick dt
  | .advance dt => .count <$> advance dt
  | .consumeRedraw => .flag <$> consumeRedraw
  | .resetProcessor => (fun _ ↦ .done) <$> Action.modify resetProcessor
  | .resetPacer => (fun _ ↦ .done) <$> Action.modify resetPacer
  | .resetMachine => request (Action.modify Machine.reset)
  | .read address => ask .byte (Machine.read address)
  | .write address value => request (Machine.write address value)
  | .readBlock address count => ask .bytes (Machine.readBlock address count)
  | .writeBlock address data => request (Machine.writeBlock address data)
  | .push address => request (Machine.push address)
  | .pop => ask .address Machine.pop
  | .countDown => request (Action.modify Machine.countDown)
  | .clearScreen => request (Action.modify Machine.clearScreen)
  | .pixel x y => ask (fun lit ↦ .byte (if lit then 1 else 0)) (Machine.pixel x y)
  | .fetch => ask .word Machine.fetch
  | .drawSprite x y height address => ask .flag (Machine.drawSprite x y height address)
  | .assign assignment => request (Action.modify (·.assign assignment))
  | .setKey key down => request (Machine.onKeypad (Keypad.set key down))
  | .isPressed key => ask .flag (Machine.onKeypad (Keypad.isPressed key))
  | .setKeys states => request (Machine.onKeypad (Keypad.setAll states))
  | .releaseKeys => request (Machine.onKeypad Keypad.clear)

end Interpreter

end ChipEight
