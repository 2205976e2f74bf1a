import ChipEight.Desktop.Keyboard
import ChipEight.Desktop.Tone
import ChipEight.Files
import ChipEight.Interpreter

/-!
# The window

The window shows the screen, sends keys to the keypad, beeps while the sound timer runs and takes
programs that are dropped on it. What it paints, what it tells the sound device and which events
wait for it are part of its state.
-/

namespace ChipEight

/-- What can happen to a window. -/
inductive DesktopEvent where
  | keyDown (key : KeyboardKey)
  | keyUp (key : KeyboardKey)
  | quit
  | focusLost
  | focusGained
  | fileDropped (path : String)
deriving DecidableEq, Repr

/-- What a sound device is told about the beep. -/
inductive SoundCall where
  | play
  | stop
deriving DecidableEq, Repr

/-- A sound device, or the reason why there is none. -/
inductive SoundDevice where
  | present
  | missing (reason : String)
deriving DecidableEq, Repr

/-- The state of a window and of the interpreter in it. -/
structure Window where
  interpreter : Interpreter
  /-- The side of a pixel. -/
  scale : Nat
  /-- The frequency of the beep. -/
  toneRate : Int
  /-- The samples of the beep, if there is a sound device. -/
  sound : Option (List Int)
  beeping : Bool
  /-- What the sound device has been told so far. -/
  calls : List SoundCall
  /-- The program that was inserted last. -/
  rom : Bytes
  /-- What the window shows. -/
  surface : Screen
  /-- How often the window has been painted. -/
  paints : Nat
  /-- Events that wait. -/
  queue : List DesktopEvent

namespace Window

/-- The title of the window. -/
def title : String := "CHIPemu"

/-- What is asked of the sound device: samples per second, bits of a signed sample, channels and the
size of the buffer. -/
def soundRequest : List Int := [Tone.defaultSampleRate, -16, 1, 256]

/-- The volume of the beep. -/
def volume : Binary64 := .ofRat (1 / 5)

/-- Opens a black window. Without a sound device there is no beep. -/
def new (i : Interpreter) (scale toneRate : Int) (device : SoundDevice) : Window × List Note :=
  let w (sound : Option (List Int)) : Window :=
    ⟨i, (max 1 scale).toNat, toneRate, sound, false, [], [], .dark, 0, []⟩
  match device with
  | .present => (w (some (Tone.beep toneRate)), [])
  | .missing reason => (w none, [.audioDisabled reason])

/-- The width and height of the window. -/
def size (w : Window) : Nat × Nat := (screenWidth * w.scale, screenHeight * w.scale)

/-- A point of the window is white where the pixel over it was lit when the window was painted. -/
def isWhite (w : Window) (px py : Nat) : Bool := w.surface.isLit (px / w.scale) (py / w.scale)

/-- The number of white points: the square of the scale for each pixel that is lit. -/
def whiteCount (w : Window) : Nat := w.surface.litCount * (w.scale * w.scale)

/-- The number of black points. -/
def blackCount (w : Window) : Nat := w.size.1 * w.size.2 - w.whiteCount

/-- An action of the interpreter. -/
def onInterpreter {α : Type} (x : Action Interpreter α) : Action Window α :=
  Action.on interpreter (fun i w ↦ { w with interpreter := i }) x

/-- Adds events to those that wait. -/
def post (events : List DesktopEvent) (w : Window) : Window :=
  { w with queue := w.queue ++ events }

/-- Loads a program and remembers it. -/
def insert (rom : Bytes) : Action Window Unit := do
  onInterpreter (Interpreter.load rom builtInFont)
  Action.modify fun w ↦ { w with rom := rom }

/-- Loads the contents of a file; tells whether they were loaded. A file that the system cannot read
or that is too large is noted, and the running program goes on. -/
def insertFile (readFile : FileReader) (path : String) : Action Window Bool :=
  match readFile path with
  | .error e =>
    match e.refusal? with
    | some r => Action.fail (.refusal r)
    | none => do
      Action.note (.notInserted path (e.text path))
      pure false
  | .ok contents => fun w ↦
    let o := insert contents w
    match o.result with
    | .ok () => ⟨o.state, .ok true, o.log ++ [.inserted path]⟩
    | .error (.fault f) => ⟨o.state, .ok false, o.log ++ [.notInserted path f.text]⟩
    | .error e => ⟨o.state, .error e, o.log⟩

/-- An action of the keypad. -/
def onKeypad {α : Type} (x : Action Keypad α) : Action Window α :=
  onInterpreter (Interpreter.onMachine (Machine.onKeypad x))

/-- Presses or releases the key of the keypad that a key stands for. -/
def setKey (key : KeyboardKey) (down : Bool) : Action Window Unit :=
  match key.keypadKey? with
  | none => pure ()
  | some k => onKeypad (Keypad.set k down)

/-- Answers one event; tells whether the window stays open. -/
def react (readFile : FileReader) : DesktopEvent → Action Window Bool
  | .quit => pure false
  | .keyDown key =>
    if key = .escape then pure false
    else if key = .reinsert then do
      insert (← Action.gets rom)
      Action.note .reset
      pure true
    else do
      setKey key true
      pure true
  | .keyUp key =>
    if key = .escape then pure false
    else do
      setKey key false
      pure true
  | .focusLost => do
    onKeypad Keypad.clear
    pure true
  | .focusGained => pure true
  | .fileDropped path => do
    let _ ← insertFile readFile path
    pure true

/-- Answers events in turn until one closes the window; tells whether it stays open. -/
def reactAll (readFile : FileReader) : List DesktopEvent → Action Window Bool
  | [] => pure true
  | e :: rest => do
    if (← react readFile e) then reactAll readFile rest else pure false

/-- Takes all events that wait and answers them; tells whether the window stays open. -/
def handleEvents (readFile : FileReader) : Action Window Bool := do
  let events ← Action.gets queue
  Action.modify fun w ↦ { w with queue := [] }
  reactAll readFile events

/-- Shows what is on the screen. -/
def paint (w : Window) : Window :=
  { w with surface := w.interpreter.machine.screen, paints := w.paints + 1 }

/-- Starts or stops the beep when the sound timer has started or run out. -/
def updateSound (w : Window) : Window :=
  let active := w.interpreter.machine.soundActive
  let told : List SoundCall :=
    if w.sound.isNone then []
    else if active && !w.beeping then [.play]
    else if !active && w.beeping then [.stop]
    else []
  { w with beeping := active, calls := w.calls ++ told }

end Window

end ChipEight
