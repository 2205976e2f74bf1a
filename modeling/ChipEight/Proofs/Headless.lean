import ChipEight.CommandLine.Run
import ChipEight.Proofs.Spelling
import ChipEight.Proofs.Ticking

/-!
# Runs without a window

Without a window the program does what a host does that sets up an interpreter as the arguments say,
loads the program into it and makes a time step for each frame.  If nothing goes wrong it prints the
screen that is left, and if a fault comes up it reports the fault.
-/

namespace ChipEight

/-- The settings of the interpreter that the arguments ask for. -/
def Arguments.interpreterSettings (a : Arguments) : Settings :=
  { clockRate := a.clock, debug := a.debug, legacyStore := a.legacyStore, seed := a.seed }

namespace CommandLine

open ChipEight.Interpreter (EndsAs FaultsAs Ready)

variable {argv : List String} {a : Arguments} {readFile : FileReader} {entropy : Array UInt32}
  {desktop : Option Desktop} {rom : Bytes} {frames fps : Int} {i : Interpreter} {s : Settings}
  {source : Source} {dt : Binary64} {t x : Rat}

/-! ## The duration of a frame -/

/-- With at least one frame per second, and no more than fit a double, a frame takes at most a
second. -/
theorem frameTime_of_pos (hfps : 1 ≤ fps) (hx : Binary64.ofInt? fps = some (.finite x)) :
    ∃ t, Binary64.ofRat (1 / x) = .finite t ∧ 0 ≤ t ∧ t ≤ 1 ∧ frameTime fps = .ok (.finite t) := by
  have hone : 1 ≤ x := by
    obtain rfl : x = Format.binary64.onGrid fps := by
      simpa using (Binary64.eq_of_ofInt? hx).1
    exact Format.one_le_onGrid (by decide) (by decide) (mod_cast hfps)
  obtain ⟨t, ht, ht₀, ht₁⟩ := Binary64.ofRat_one_div hone
  refine ⟨t, ht, ht₀, ht₁, ?_⟩
  -- Not by `rw`: the equation of `frameTime` takes long to generate.
  delta frameTime
  simp only [hx]
  rw [if_neg (by linarith), ht]

/-! ## Loading and running -/

theorem headless_of_frameTime (h : frameTime fps = .ok dt) :
    headless rom frames fps = Interpreter.load rom builtInFont >>= fun _ ↦
      Action.replicate frames.toNat (do let _ ← Interpreter.tick dt) := by
  have hduration : (Action.ofExcept ((frameTime fps).mapError .refusal) :
      Action Interpreter Binary64) = pure dt := by
    rw [h]
    rfl
  rw [headless, hduration]
  simp only [pure_bind]

/-- A new interpreter is between instructions and has no program. -/
theorem idle_of_new (hi : Interpreter.new s source = .ok i) :
    i.machine.busy = false ∧ i.loaded = false := by
  obtain ⟨_, -, rfl⟩ := Interpreter.eq_of_new hi
  exact ⟨rfl, rfl⟩

/-- A program that fits is loaded into a new interpreter. -/
theorem load_of_new (hi : Interpreter.new s source = .ok i) (hfits : rom.length ≤ maxProgramSize) :
    let o := Interpreter.load rom builtInFont i
    o.result = .ok () ∧ Interpreter.JustLoaded rom builtInFont i o.state ∧
      o.state.HasSettings s := by
  have idle := (idle_of_new hi).1
  have hstate : (Interpreter.perform (.load rom builtInFont) i).state =
      (Interpreter.load rom builtInFont i).state := Action.state_map _ _ _
  intro o
  refine ⟨congrArg Outcome.result (Interpreter.load_of_fits idle length_builtInFont hfits), ?_, ?_⟩
  · exact hstate ▸ Interpreter.justLoaded_load idle length_builtInFont hfits
  · exact hstate ▸ Interpreter.independent_hasSettings.perform (.load rom builtInFont) i
      (Interpreter.hasSettings_new hi).1

/-- What a host asks of an interpreter in place of a run without a window. -/
def headlessCommands (rom : Bytes) (frames : Int) (dt : Binary64) : List Command :=
  .load rom builtInFont :: List.replicate frames.toNat (.tick dt)

/-- A program that is too large ends a run before the duration of a frame matters. -/
theorem headless_of_too_large (hi : Interpreter.new s source = .ok i)
    (large : maxProgramSize < rom.length) (frames fps : Int) :
    headless rom frames fps i =
      ⟨i, .error (.ofCause (.programTooLarge rom.length maxProgramSize)), []⟩ := by
  have hload := Interpreter.load_of_too_large (idle_of_new hi).1 length_builtInFont large
  rw [headless, Action.bind_of_error (by rw [hload]), hload]

theorem perform_load_eq (rom : Bytes) (i : Interpreter) :
    Interpreter.perform (.load rom builtInFont) i =
      ((fun _ ↦ .done) <$> Interpreter.load rom builtInFont) i := rfl

/-- Time steps without a program do nothing. -/
theorem endsAs_headless_of_too_large (hi : Interpreter.new s source = .ok i)
    (large : maxProgramSize < rom.length) (frames : Int) (hdt : frameTime fps = .ok dt) :
    EndsAs (headlessCommands rom frames dt) i (headless rom frames fps i) := by
  obtain ⟨idle, notLoaded⟩ := idle_of_new hi
  have hload := Interpreter.load_of_too_large idle length_builtInFont large
  rw [headless_of_frameTime hdt, headlessCommands]
  refine .cons (perform_load_eq rom i) (fun _ hok ↦ ?_) fun e _ c hc ↦ ?_
  · rw [hload] at hok
    cases hok
  · rw [hload, List.eq_of_mem_replicate hc]
    exact Interpreter.idle_tick_of_not_loaded notLoaded

/-- A run without a window is a load and time steps. -/
theorem faultsAs_headless (hi : Interpreter.new s source = .ok i)
    (fits : rom.length ≤ maxProgramSize) (hdt : frameTime fps = .ok dt)
    (hticks : let j := (Interpreter.load rom builtInFont i).state
      FaultsAs (List.replicate frames.toNat (.tick dt)) j
        (Action.replicate frames.toNat (do let _ ← Interpreter.tick dt) j)) :
    FaultsAs (headlessCommands rom frames dt) i (headless rom frames fps i) := by
  rw [headless_of_frameTime hdt, headlessCommands]
  refine .cons (perform_load_eq rom i) (fun _ _ ↦ hticks) fun e he ↦ ?_
  cases (load_of_new hi fits).1.symm.trans he

/-- At rates that are positive and in range a program that fits comes to no error but its own
faults. -/
theorem faultsAs_headless_of_inRange (frames : Int) (hi : Interpreter.new s source = .ok i)
    (hclock : Binary64.ofInt? s.clockRate ≠ none) (fits : rom.length ≤ maxProgramSize)
    (ht₀ : 0 ≤ t) (ht₁ : t ≤ 1) (hdt : frameTime fps = .ok (.finite t)) :
    FaultsAs (headlessCommands rom frames (.finite t)) i (headless rom frames fps i) := by
  obtain ⟨-, hloaded, hsettings⟩ := load_of_new hi fits
  have hready := Ready.of_justLoaded hloaded hsettings hclock
  exact faultsAs_headless hi fits hdt (hready.faultsAs_ticks ht₀ ht₁ frames.toNat)

/-- At such rates any program is run as the interpreter runs it, and ends with its last frame or
with a fault. -/
theorem endsAs_headless (rom : Bytes) (frames : Int) (hi : Interpreter.new s source = .ok i)
    (hclock : Binary64.ofInt? s.clockRate ≠ none) (ht₀ : 0 ≤ t) (ht₁ : t ≤ 1)
    (hdt : frameTime fps = .ok (.finite t)) :
    let o := headless rom frames fps i
    EndsAs (headlessCommands rom frames (.finite t)) i o ∧
      ∀ e, o.result = .error e → ∃ f, e = .fault f ∧
        (f = ⟨.programTooLarge rom.length 3584, none⟩ ∨ f.OfInstruction) := by
  intro o
  by_cases fits : rom.length ≤ maxProgramSize
  · have hfaults := faultsAs_headless_of_inRange frames hi hclock fits ht₀ ht₁ hdt
    refine ⟨hfaults.toEndsAs, fun e he ↦ ?_⟩
    obtain ⟨f, rfl, hf⟩ := hfaults.ofInstruction e he
    exact ⟨f, rfl, .inr hf⟩
  · have large := Nat.lt_of_not_le fits
    refine ⟨endsAs_headless_of_too_large hi large frames hdt, fun e he ↦ ?_⟩
    obtain rfl : .ofCause (.programTooLarge rom.length maxProgramSize) = e := by
      simpa [o, headless_of_too_large hi large] using he
    exact ⟨_, rfl, .inl rfl⟩

/-! ## The report -/

/-- The arguments name a program, at a clock rate that is positive. -/
structure Accepted (a : Arguments) : Prop where
  named : a.demo = true ∨ a.rom.isSome = true
  clock : 0 < a.clock

theorem unnamed_iff :
    (a.rom.isNone && !a.demo) = true ↔ ¬ (a.demo = true ∨ a.rom.isSome = true) := by
  cases a.demo <;> cases a.rom <;> simp

/-- With such arguments the program is read, at settings that ask for the same interpreter. -/
theorem settings_of_accepted (accepted : Accepted a) :
    ∃ s, a.settings = .ok s ∧ s.clockRate = a.clock ∧ s.frameRate = a.fps ∧
      ∀ entropy, Interpreter.ofSettings s entropy =
        Interpreter.ofSettings a.interpreterSettings entropy :=
  ⟨_, if_neg (Int.not_le.2 accepted.clock), rfl, rfl, fun _ ↦ rfl⟩

theorem run_of_unreadable {e : FileError} (hargv : Arguments.read argv = .ok a)
    (accepted : Accepted a) (hrom : romOf a readFile = .error e) :
    run argv readFile entropy desktop = reportUnreadable (a.rom.getD "") e := by
  obtain ⟨s, hs, -⟩ := settings_of_accepted accepted
  simp only [run, hargv, runArguments, if_neg (fun h ↦ unnamed_iff.1 h accepted.named), hs, hrom]

theorem run_of_headless (hargv : Arguments.read argv = .ok a) (accepted : Accepted a)
    (hframes : a.headless = some frames) (hrom : romOf a readFile = .ok rom)
    (hi : Interpreter.ofSettings a.interpreterSettings entropy = .ok i) :
    run argv readFile entropy desktop =
      reportHeadless a [.starting (programOf a) a.clock] (headless rom frames a.fps i) := by
  obtain ⟨s, hs, hrate, hfps, hsame⟩ := settings_of_accepted accepted
  simp only [run, hargv, runArguments, if_neg (fun h ↦ unnamed_iff.1 h accepted.named), hs, hrom]
  rw [runRom, hsame, hi, hframes, hrate, hfps]

theorem exists_ofSettings (hclock : 0 < a.clock) (entropy : Array UInt32) :
    ∃ i, Interpreter.ofSettings a.interpreterSettings entropy = .ok i :=
  Interpreter.new_of_pos (s := a.interpreterSettings) hclock (Int.natCast_pos.2 (by decide)) _

/-- Without a window the program agrees with the interpreter that it is made of.  All arguments can
be given on the command line.  Whatever the command line, take the arguments that it is read as and
the program that they name, at a clock rate and a frame rate that are positive and fit a double, and
let an interpreter that is set up accordingly, with the same words of the system to draw random
bytes from if the arguments give no seed, load the program and make a time step for each frame.  If
no error comes up, the exit code is 0 and the screen that is left is printed.  If one does, then
there is no other one and it is a fault; the exit code is 1, nothing is printed, and the error
stream ends with a line that reports the fault, with the address that it has unless it is about the
size of the program. -/
theorem headless_agrees_with_library :
    (∀ a : Arguments, a.Spellable → Arguments.read a.spelling = .ok a) ∧
    ∀ (argv : List String) (a : Arguments) (readFile : FileReader) (entropy : Array UInt32)
      (desktop : Option Desktop) (rom : Bytes) (frames : Int) (x : Rat),
      Arguments.read argv = .ok a → a.headless = some frames →
      (a.demo = true ∨ a.rom.isSome = true) → romOf a readFile = .ok rom →
      1 ≤ a.clock → Binary64.ofInt? a.clock ≠ none →
      1 ≤ a.fps → Binary64.ofInt? a.fps = some (.finite x) →
      ∃ i, Interpreter.ofSettings a.interpreterSettings entropy = .ok i ∧
        let commands : List Command :=
          .load rom builtInFont :: List.replicate frames.toNat (.tick (.ofRat (1 / x)))
        let screen := (Interpreter.performAll commands i).machine.screen
        let log := logText a.logLevel
          (.starting (programOf a) a.clock :: Interpreter.notes commands i)
        let report := run argv readFile entropy desktop
        (Interpreter.errors commands i = [] ∧
            report = ⟨.ok 0, screen.render "X" " " ++ "\n", log, none⟩) ∨
          ∃ f : Fault, Interpreter.errors commands i = [.fault f] ∧
            report = ⟨.ok 1, "", log ++ ("Emulation halted: " ++ f.text ++ "\n"), none⟩ ∧
            (f.address = none ↔ ∃ size limit, f.cause = .programTooLarge size limit) ∧
            f.text = f.cause.text ++
              f.address.elim "" fun address ↦ " at PC " ++ Numeral.padHex 3 address := by
  refine ⟨fun a ha ↦ Arguments.read_spelling ha, ?_⟩
  intro argv a readFile entropy desktop rom frames x hread hframes hnamed hrom hclock hclock' hfps
    hx
  obtain ⟨i, hi⟩ := exists_ofSettings hclock entropy
  obtain ⟨t, ht, ht₀, ht₁, hdt⟩ := frameTime_of_pos hfps hx
  refine ⟨i, hi, ?_⟩
  rw [ht, run_of_headless hread ⟨hnamed, hclock⟩ hframes hrom hi]
  obtain ⟨hends, hfaults⟩ := endsAs_headless rom frames hi hclock' ht₀ ht₁ hdt
  rw [headlessCommands] at hends
  generalize headless rom frames a.fps i = o at hends hfaults
  dsimp only
  rw [hends.errors, hends.notes, hends.state]
  obtain ⟨last, _ | ⟨⟩, log⟩ := o
  · next e =>
    obtain ⟨f, rfl, hf⟩ := hfaults e rfl
    refine .inr ⟨f, rfl, rfl, ?_, ?_⟩
    · obtain rfl | ⟨⟨address, haddress⟩, hcause⟩ := hf
      · exact iff_of_true rfl ⟨_, _, rfl⟩
      · rw [haddress]
        exact iff_of_false nofun fun ⟨size, limit, h⟩ ↦ hcause size limit h
    · obtain ⟨cause, _ | address⟩ := f
      · exact (String.append_empty).symm
      · exact String.append_assoc
  · exact .inl ⟨rfl, rfl⟩

/-- An unknown word ends the program in the first frame. -/
theorem unknown_word_is_reported :
    let a : Arguments := { rom := some "game", fps := 50, headless := some 3 }
    let report := run a.spelling (fun _ ↦ .ok [0xFF, 0xFF]) #[2, 1] none
    report.ending = .ok 1 ∧ report.output = "" ∧
      ∃ log, report.errors =
        log ++ ("Emulation halted: " ++ "Unknown opcode: FFFF at PC 200" ++ "\n") := by
  intro a report
  obtain ⟨hspelling, hruns⟩ := headless_agrees_with_library
  have hread : Arguments.read a.spelling = .ok a := by
    refine hspelling a ⟨?_, ?_, ?_, ?_, ?_, ?_⟩ <;> decide +kernel
  obtain ⟨i, hi, hreport⟩ := hruns a.spelling a (fun _ ↦ .ok [0xFF, 0xFF]) #[2, 1] none
    [0xFF, 0xFF] 3 50 hread rfl (.inr rfl) rfl (by decide) (by decide +kernel) (by decide)
    (by decide +kernel)
  have herrors : Interpreter.errors (.load [0xFF, 0xFF] builtInFont ::
      List.replicate (3 : Int).toNat (.tick (.ofRat (1 / 50)))) i =
        [.fault ⟨.unknownOpcode 0xFFFF, some 0x200⟩] := by
    cases hi
    decide +kernel
  obtain ⟨hnone, -⟩ | ⟨f, hfault, heq, -, -⟩ := hreport
  · cases herrors.symm.trans hnone
  · obtain rfl : f = ⟨.unknownOpcode 0xFFFF, some 0x200⟩ := by
      simpa using (herrors.symm.trans hfault).symm
    have hwords : Fault.text ⟨.unknownOpcode 0xFFFF, some 0x200⟩ =
        "Unknown opcode: FFFF at PC 200" := by
      decide +kernel
    have hreport : report = _ := heq
    rw [hreport, hwords]
    exact ⟨rfl, rfl, _, rfl⟩

end CommandLine

end ChipEight
