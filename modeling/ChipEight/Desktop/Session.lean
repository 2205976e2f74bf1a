import ChipEight.Desktop.Window

/-!
# Running a window

A window runs frame by frame: it answers its events, lets the interpreter run for the time that the
last frame took, keeps the beep up to date, and paints if the screen has been drawn on. Here the
frames follow a script of events and times. After the script the user quits.
-/

namespace ChipEight

/-- What happens in one frame. -/
structure Frame where
  /-- The events that have come in at its beginning. -/
  events : List DesktopEvent
  /-- How long it takes, in thousandths of a second. -/
  duration : Int
  /-- The user breaks off at its end. -/
  interrupt : Bool
deriving DecidableEq, Repr

/-- What is seen at the end of a frame. -/
structure FrameReport where
  window : Window
  /-- The frame rate that was asked for. -/
  frameRate : Int
  log : List Note

/-- How a session ends. -/
inductive Ending where
  | closed
  | interrupted
  | failed (error : Error)
deriving DecidableEq

/-- A session: its completed frames, how it ended, and what was left then. -/
structure SessionReport where
  frames : List FrameReport
  ending : Ending
  window : Window
  /-- The notes after the last completed frame. -/
  log : List Note

namespace Session

/-- Thousandths of a second as seconds. -/
def seconds (duration : Int) : Except Refusal Binary64 :=
  match Binary64.ofInt? duration with
  | some (.finite x) => .ok (.ofRat (x / 1000))
  | _ => .error .integerTooLarge

/-- One frame after `dt` seconds; tells whether the window stays open. -/
def frame (readFile : FileReader) (events : List DesktopEvent) (dt : Binary64) :
    Action Window Bool := do
  Action.modify (Window.post events)
  if (← Window.handleEvents readFile) then
    let _ ← Window.onInterpreter (Interpreter.tick dt)
    Action.modify Window.updateSound
    if (← Window.onInterpreter Interpreter.consumeRedraw) then Action.modify Window.paint
    pure true
  else pure false

/-- The frames of a script from a window on, with the notes since the last frame. -/
def frames (readFile : FileReader) (frameRate : Int) (w : Window) (log : List Note)
    (dt : Binary64) : List Frame → SessionReport
  | [] =>
    let o := frame readFile [.quit] dt w
    let ending := match o.result with
      | .ok _ => .closed
      | .error e => .failed e
    ⟨[], ending, o.state, log ++ o.log⟩
  | f :: rest =>
    let o := frame readFile f.events dt w
    match o.result with
    | .error e => ⟨[], .failed e, o.state, log ++ o.log⟩
    | .ok false => ⟨[], .closed, o.state, log ++ o.log⟩
    | .ok true =>
      let report : FrameReport := ⟨o.state, frameRate, log ++ o.log⟩
      if f.interrupt then ⟨[report], .interrupted, o.state, []⟩
      else match seconds f.duration with
        | .error e => ⟨[report], .failed (.refusal e), o.state, []⟩
        | .ok dt =>
          let later := frames readFile frameRate o.state [] dt rest
          { later with frames := report :: later.frames }

/-- Opens a window on an interpreter, inserts a program and follows a script. -/
def run (readFile : FileReader) (i : Interpreter) (s : Settings) (rom : Bytes)
    (device : SoundDevice) (script : List Frame) : SessionReport :=
  let (w, opened) := Window.new i s.scale s.toneRate device
  let o := Window.insert rom w
  match o.result with
  | .error e => ⟨[], .failed e, o.state, opened ++ o.log⟩
  | .ok () => frames readFile s.frameRate o.state (opened ++ o.log) 0 script

end Session

end ChipEight
