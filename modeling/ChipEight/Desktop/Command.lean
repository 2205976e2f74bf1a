import ChipEight.Desktop.Window
import ChipEight.Interpreter.Command

/-!
# Commands on a window

All that can be asked of a window, as data: what its own controls do, and the commands of the
interpreter in it. `Window.perform` carries out one command.
-/

namespace ChipEight

/-- A request to a window. -/
inductive WindowCommand where
  | post (event : DesktopEvent)
  | handleEvents
  | insert (rom : Bytes)
  | insertFile (path : String)
  | updateSound
  | paint
  | interpret (command : Command)
deriving DecidableEq

namespace Window

/-- Carries out a command. -/
def perform (readFile : FileReader) : WindowCommand → Action Window Reply
  | .post event => (fun _ ↦ .done) <$> Action.modify (post [event])
  | .handleEvents => .flag <$> handleEvents readFile
  | .insert rom => (fun _ ↦ .done) <$> insert rom
  | .insertFile path => .flag <$> insertFile readFile path
  | .updateSound => (fun _ ↦ .done) <$> Action.modify updateSound
  | .paint => (fun _ ↦ .done) <$> Action.modify paint
  | .interpret command => onInterpreter (Interpreter.perform command)

end Window

end ChipEight
