import ChipEight.Fault
import ChipEight.Opcode

/-!
# Notes for the log

Each part of the emulator leaves notes on what it does. A note is kept as data; its level, the part
that wrote it and its text follow from it.
-/

namespace ChipEight

/-- How important a note is. -/
inductive Level where
  | debug
  | info
  | warning
  | error
deriving DecidableEq, Repr

namespace Level

/-- All levels, the least important first. -/
def all : List Level := [.debug, .info, .warning, .error]

/-- The word for a level. -/
def name : Level → String
  | .debug => "DEBUG"
  | .info => "INFO"
  | .warning => "WARNING"
  | .error => "ERROR"

/-- The level of the given name. -/
def ofName? (name : String) : Option Level := all.find? (·.name == name)

/-- The place of a level in the order of importance. -/
def rank : Level → Nat
  | .debug => 0
  | .info => 1
  | .warning => 2
  | .error => 3

@[simp] theorem ofName?_name (l : Level) : ofName? l.name = some l := by cases l <;> decide

end Level

/-- The parts of the emulator that write notes. -/
inductive Part where
  | machine
  | processor
  | desktop
  | commandLine
deriving DecidableEq, Repr

/-- Something worth a line in the log. -/
inductive Note where
  | programLoaded (size : Nat)
  | dispatched (address : Int) (instruction : Instruction)
  | skipped (fault : Fault)
  | halted (fault : Fault)
  | reset
  | inserted (path : String)
  | notInserted (path reason : String)
  | audioDisabled (reason : String)
  | starting (program : String) (clockRate : Int)
deriving DecidableEq

namespace Note

/-- How important a note is. -/
def level : Note → Level
  | .dispatched .. => .debug
  | .programLoaded _ | .reset | .inserted _ | .starting .. => .info
  | .skipped _ | .audioDisabled _ => .warning
  | .halted _ | .notInserted .. => .error

/-- The part that writes a note. -/
def part : Note → Part
  | .programLoaded _ => .machine
  | .dispatched .. | .skipped _ | .halted _ => .processor
  | .reset | .inserted _ | .notInserted .. | .audioDisabled _ => .desktop
  | .starting .. => .commandLine

/-- A note in words. -/
def text : Note → String
  | .programLoaded size => "ROM loaded (" ++ toString size ++ " bytes)"
  | .dispatched address i =>
    Numeral.padHex 3 address ++ ": " ++ i.word.text ++ " " ++ i.op.name
  | .skipped fault => fault.text ++ ", skipped (debug mode)"
  | .halted fault => "Halted: " ++ fault.text
  | .reset => "Emulator reset"
  | .inserted path => "Inserted " ++ path
  | .notInserted path reason => "Cannot load " ++ path ++ ": " ++ reason
  | .audioDisabled reason => "Audio disabled: " ++ reason
  | .starting program clockRate =>
    "Starting " ++ program ++ " at " ++ toString clockRate ++ " Hz"

end Note

end ChipEight
