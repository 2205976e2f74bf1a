import ChipEight.CommandLine.Arguments
import ChipEight.Desktop.Session
import ChipEight.Screen.Picture

/-!
# Running from the command line

The program reads its arguments and a ROM, and runs it: without a window for a number of frames, of
which the last picture is printed, or in a window. What it prints, what goes to the error stream and
how it ends are its report.
-/

namespace ChipEight

/-- A window system: its sound device, and what the user does. -/
structure Desktop where
  device : SoundDevice
  script : List Frame

/-- How the program ends and what it leaves behind. -/
structure Report where
  /-- The exit code, or an error that nothing in the program catches. -/
  ending : Except Error Nat
  output : String
  errors : String
  /-- The session in a window, if there was one. -/
  session : Option SessionReport

namespace CommandLine

/-- The lines of the log from a level on. -/
def logText (least : Level) (log : List Note) : String :=
  String.join ((log.filter fun n ↦ least.rank ≤ n.level.rank).map fun n ↦
    "[" ++ n.level.name ++ "] " ++ n.text ++ "\n")

/-- The line that reports a fault. -/
def haltText (f : Fault) : String := "Emulation halted: " ++ f.text ++ "\n"

/-- Ends because of bad arguments or a request for help. -/
def leave (l : Leave) : Report := ⟨.ok l.code, l.output, l.errors, none⟩

/-- The duration of a frame in double precision. -/
def frameTime (fps : Int) : Except Refusal Binary64 :=
  match Binary64.ofInt? fps with
  | some (.finite x) => if x = 0 then .error .divisionByZero else .ok (.ofRat (1 / x))
  | _ => .error .integerTooLarge

/-- Loads a program and runs it for a number of frames, none if the number is negative. -/
def headless (rom : Bytes) (frames fps : Int) : Action Interpreter Unit := do
  Interpreter.load rom builtInFont
  let dt ← Action.ofExcept ((frameTime fps).mapError .refusal)
  Action.replicate frames.toNat (do let _ ← Interpreter.tick dt)

/-- The report of a run without a window. -/
def reportHeadless (a : Arguments) (begun : List Note) (o : Outcome Interpreter Unit) : Report :=
  let log := logText a.logLevel (begun ++ o.log)
  match o.result with
  | .ok () =>
    ⟨.ok 0, o.state.machine.screen.render Picture.defaultOn Picture.defaultOff ++ "\n", log, none⟩
  | .error (.fault f) => ⟨.ok 1, "", log ++ haltText f, none⟩
  | .error e => ⟨.error e, "", log, none⟩

/-- The report of a run in a window. -/
def reportSession (a : Arguments) (begun : List Note) (r : SessionReport) : Report :=
  let log := logText a.logLevel (begun ++ r.frames.flatMap (·.log) ++ r.log)
  match r.ending with
  | .closed => ⟨.ok 0, "", log, some r⟩
  | .interrupted => ⟨.ok 0, "\nExiting.\n", log, some r⟩
  | .failed (.fault f) => ⟨.ok 1, "", log ++ haltText f, some r⟩
  | .failed e => ⟨.error e, "", log, some r⟩

/-- The program to be run. -/
def romOf (a : Arguments) (readFile : FileReader) : Except FileError Bytes :=
  if a.demo then .ok glyphDemo else readFile (a.rom.getD "")

/-- The name of the program in the log. -/
def programOf (a : Arguments) : String :=
  match a.rom with
  | none | some "" => "demo"
  | some rom => rom

/-- Runs a program that has been read. -/
def runRom (a : Arguments) (s : Settings) (rom : Bytes) (readFile : FileReader)
    (entropy : Array UInt32) (desktop : Option Desktop) : Report :=
  match Interpreter.ofSettings s entropy with
  | .error r => ⟨.error (.refusal r), "", "", none⟩
  | .ok i =>
    let begun : List Note := [.starting (programOf a) s.clockRate]
    match a.headless, desktop with
    | some frames, _ => reportHeadless a begun (headless rom frames s.frameRate i)
    | none, some d => reportSession a begun (Session.run readFile i s rom d.device d.script)
    | none, none =>
      ⟨.ok 1, "", logText a.logLevel begun ++ "There is no window system; use --headless.\n", none⟩

/-- The report on a ROM that cannot be read. -/
def reportUnreadable (path : String) (e : FileError) : Report :=
  match e.refusal? with
  | some r => ⟨.error (.refusal r), "", "", none⟩
  | none => ⟨.ok 2, "", "Cannot read ROM: " ++ e.text path ++ "\n", none⟩

/-- Runs with arguments that have been read. -/
def runArguments (a : Arguments) (readFile : FileReader) (entropy : Array UInt32)
    (desktop : Option Desktop) : Report :=
  if a.rom.isNone && !a.demo then leave (.complaint "a ROM path or --demo is required")
  else match a.settings with
    | .error r => leave (.complaint r.text)
    | .ok s =>
      match romOf a readFile with
      | .error e => reportUnreadable (a.rom.getD "") e
      | .ok rom => runRom a s rom readFile entropy desktop

/-- Runs the program with the given arguments. What the files hold, with which words a generator is
seeded that has no seed, and whether there is a window system is up to the system. -/
def run (argv : List String) (readFile : FileReader) (entropy : Array UInt32)
    (desktop : Option Desktop) : Report :=
  match Arguments.read argv with
  | .error l => leave l
  | .ok a => runArguments a readFile entropy desktop

end CommandLine

end ChipEight
