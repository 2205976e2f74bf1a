import ChipEight.Proofs.Dropping
import ChipEight.Proofs.Headless

/-!
# How a run without a window ends

A run without a window ends with an exit code for each thing that it is prepared for: bad arguments
and requests for help, a ROM that cannot be read, faults, and frames that have all been made.  There
are five things that it is not prepared for, and each of them lets an error out that nothing in the
program catches: a path that no system takes, a frame rate of zero, a frame rate or a clock rate
that does not fit a double, and a frame rate below zero, with which time would run backwards.
-/

namespace ChipEight

namespace CommandLine

open ChipEight.Interpreter (FaultsAs)

variable {argv : List String} {a : Arguments} {readFile : FileReader} {entropy : Array UInt32}
  {desktop : Option Desktop} {rom : Bytes} {frames fps : Int} {i : Interpreter} {s : Settings}
  {source : Source} {dt : Binary64} {r : Refusal} {x : Rat}

/-- The rates that a run of some frames is not prepared for, with the errors that they lead to. -/
inductive BadRate (a : Arguments) (frames : Int) : Refusal → Prop
  /-- The frame rate does not fit a double. -/
  | fpsTooLarge (hfps : Binary64.ofInt? a.fps = none) : BadRate a frames .integerTooLarge
  /-- The frame rate is zero. -/
  | fpsZero (hfps : a.fps = 0) : BadRate a frames .divisionByZero
  /-- The frame rate is negative, and so is the duration of the first frame. -/
  | fpsNegative {x : Rat} (hfps : a.fps < 0) (hx : Binary64.ofInt? a.fps = some (.finite x))
      (hframes : 0 < frames) : BadRate a frames (.negativeTime (.ofRat (1 / x)))
  /-- The clock rate does not fit a double, which the first frame needs. -/
  | clockTooLarge (hfps : 0 < a.fps) (hfps' : Binary64.ofInt? a.fps ≠ none)
      (hclock : Binary64.ofInt? a.clock = none) (hframes : 0 < frames) :
      BadRate a frames .integerTooLarge

/-! ## The duration of a frame -/

theorem frameTime_of_none (h : Binary64.ofInt? fps = none) :
    frameTime fps = .error .integerTooLarge := by
  delta frameTime
  simp only [h]

theorem frameTime_zero : frameTime 0 = .error .divisionByZero := by
  have hzero : Binary64.ofInt? 0 = some (.finite 0) := by decide +kernel
  delta frameTime
  simp only [hzero]
  rfl

/-- At a negative rate a frame has a negative duration. -/
theorem frameTime_of_neg (hfps : fps < 0) (hx : Binary64.ofInt? fps = some (.finite x)) :
    frameTime fps = .ok (.ofRat (1 / x)) ∧ (Binary64.ofRat (1 / x)).isNegative = true := by
  obtain ⟨hgrid, -, hrange⟩ := Binary64.eq_of_ofInt? hx
  obtain rfl : x = Format.binary64.onGrid fps := by simpa using hgrid
  have hneg : Format.binary64.onGrid fps < 0 := by
    refine Format.onGrid_neg (by decide) (mod_cast hfps) ?_
    calc (2 : Rat) ^ Format.binary64.minExponent ≤ 1 :=
          zpow_le_one_of_nonpos₀ one_le_two (by decide)
      _ ≤ |(fps : Rat)| := mod_cast Int.one_le_abs hfps.ne
  generalize Format.binary64.onGrid fps = x at *
  constructor
  · delta frameTime
    simp only [hx]
    rw [if_neg hneg.ne]
  · refine Binary64.isNegative_ofRat (one_div_neg.2 hneg) ?_
    -- The reciprocal of the bound is still far above the smallest double.
    calc (2 : Rat) ^ Format.binary64.minExponent
        ≤ 2 ^ (-(Format.binary64.maxExponent : Int)) := zpow_le_zpow_right₀ one_le_two (by decide)
      _ = 1 / Format.binary64.bound := by rw [zpow_neg, zpow_natCast, one_div, Format.bound]
      _ ≤ 1 / |x| := one_div_le_one_div_of_le (abs_pos.2 hneg.ne) hrange.le
      _ = |1 / x| := by rw [abs_div, abs_one]

theorem frameTime_pos (hfps : 0 < fps) (h : Binary64.ofInt? fps ≠ none) :
    ∃ t, frameTime fps = .ok (.finite t) ∧ 0 ≤ t ∧ t ≤ 1 := by
  obtain ⟨y, hy⟩ := Option.ne_none_iff_exists'.1 h
  obtain ⟨rfl, -, -⟩ := Binary64.eq_of_ofInt? hy
  obtain ⟨t, -, ht₀, ht₁, hdt⟩ := frameTime_of_pos hfps hy
  exact ⟨t, hdt, ht₀, ht₁⟩

/-! ## Loading and running -/

theorem headless_of_frameTime_error (h : frameTime fps = .error r) :
    headless rom frames fps = Interpreter.load rom builtInFont >>= fun _ ↦
      Action.fail (.refusal r) := by
  have hduration : (Action.ofExcept ((frameTime fps).mapError .refusal) :
      Action Interpreter Binary64) = Action.fail (.refusal r) := by
    rw [h]
    rfl
  rw [headless, hduration]
  rfl

theorem result_headless_of_fits (hi : Interpreter.new s source = .ok i)
    (hfits : rom.length ≤ maxProgramSize) (hdt : frameTime fps = .ok dt) :
    (headless rom frames fps i).result =
      (Action.replicate frames.toNat (do let _ ← Interpreter.tick dt)
        (Interpreter.load rom builtInFont i).state).result := by
  rw [headless_of_frameTime hdt, Action.bind_of_ok (load_of_new hi hfits).1]

/-- Time steps are not repeated if the first one fails. -/
theorem result_ticks_of_error {e : Error} (h : (Interpreter.tick dt i).result = .error e)
    (hframes : 0 < frames) :
    (Action.replicate frames.toNat (do let _ ← Interpreter.tick dt) i).result = .error e := by
  obtain ⟨n, hn⟩ : ∃ n, frames.toNat = n + 1 := ⟨frames.toNat - 1, by omega⟩
  rw [hn, Action.replicate_succ, bind_assoc, Action.bind_of_error h]

theorem result_headless_of_badRate
    (hi : Interpreter.ofSettings a.interpreterSettings entropy = .ok i)
    (hfits : rom.length ≤ maxProgramSize) (h : BadRate a frames r) :
    (headless rom frames a.fps i).result = .error (.refusal r) := by
  obtain ⟨hload, hloaded, hsettings⟩ := load_of_new hi hfits
  have hframeTime {r : Refusal} (hr : frameTime a.fps = .error r) :
      (headless rom frames a.fps i).result = .error (.refusal r) := by
    rw [headless_of_frameTime_error hr, Action.bind_of_ok hload]
    rfl
  cases h with
  | fpsTooLarge hfps => exact hframeTime (frameTime_of_none hfps)
  | fpsZero hfps => exact hframeTime (hfps ▸ frameTime_zero)
  | fpsNegative hfps hx hframes =>
    obtain ⟨hdt, hneg⟩ := frameTime_of_neg hfps hx
    rw [result_headless_of_fits hi hfits hdt]
    refine result_ticks_of_error ?_ hframes
    rw [Interpreter.tick_of_loaded hloaded.loaded, Interpreter.advance_of_isNegative hneg]
  | clockTooLarge hfps hfps' hclock hframes =>
    obtain ⟨t, hdt, ht₀, -⟩ := frameTime_pos hfps hfps'
    rw [result_headless_of_fits hi hfits hdt]
    refine result_ticks_of_error ?_ hframes
    rw [Interpreter.tick_of_loaded hloaded.loaded, Interpreter.advance_of_rateOutOfRange
      (by simpa using ht₀) hloaded.running (by rwa [hsettings.clockRate])]

/-- Without frames it does not matter how long one would take. -/
theorem faultsAs_headless_of_no_frames (hi : Interpreter.new s source = .ok i)
    (fits : rom.length ≤ maxProgramSize) (hdt : frameTime fps = .ok dt) (hframes : frames ≤ 0) :
    FaultsAs (headlessCommands rom frames dt) i (headless rom frames fps i) := by
  refine faultsAs_headless hi fits hdt ?_
  rw [Int.toNat_of_nonpos hframes]
  exact .nil _

/-- Without bad rates a program that fits is run as the interpreter runs it, and ends with its last
frame or with a fault of its own. -/
theorem exists_faultsAs_headless
    (hi : Interpreter.ofSettings a.interpreterSettings entropy = .ok i)
    (fits : rom.length ≤ maxProgramSize) (hgood : ∀ r, ¬ BadRate a frames r) :
    ∃ dt, frameTime a.fps = .ok dt ∧
      FaultsAs (headlessCommands rom frames dt) i (headless rom frames a.fps i) := by
  have hrange : Binary64.ofInt? a.fps ≠ none := fun hnone ↦ hgood _ (.fpsTooLarge hnone)
  obtain hneg | hzero | hpos := lt_trichotomy a.fps 0
  · obtain ⟨y, hy⟩ := Option.ne_none_iff_exists'.1 hrange
    obtain ⟨rfl, -, -⟩ := Binary64.eq_of_ofInt? hy
    obtain ⟨hdt, -⟩ := frameTime_of_neg hneg hy
    refine ⟨_, hdt, faultsAs_headless_of_no_frames hi fits hdt (Int.not_lt.1 fun hframes ↦ ?_)⟩
    exact hgood _ (.fpsNegative hneg hy hframes)
  · exact absurd (.fpsZero hzero) (hgood _)
  · obtain ⟨t, hdt, ht₀, ht₁⟩ := frameTime_pos hpos hrange
    refine ⟨_, hdt, ?_⟩
    by_cases hclock : Binary64.ofInt? a.clock = none
    · refine faultsAs_headless_of_no_frames hi fits hdt (Int.not_lt.1 fun hframes ↦ ?_)
      exact hgood _ (.clockTooLarge hpos hrange hclock hframes)
    · exact faultsAs_headless_of_inRange frames hi hclock fits ht₀ ht₁ hdt

/-! ## The report -/

/-- The errors that get out of a run without a window. -/
inductive Escapes (a : Arguments) (readFile : FileReader) : Refusal → Prop
  /-- No system takes the path. -/
  | rejected {e : FileError} {r : Refusal} (accepted : Accepted a)
      (hrom : romOf a readFile = .error e) (hpath : e.refusal? = some r) : Escapes a readFile r
  /-- The program can be read and fits, but a rate is bad. -/
  | badRate {frames : Int} {rom : Bytes} {r : Refusal} (accepted : Accepted a)
      (hrom : romOf a readFile = .ok rom) (fits : rom.length ≤ 3584)
      (hframes : a.headless = some frames) (hrate : BadRate a frames r) : Escapes a readFile r

/-- A run without a window that gets under way: the arguments and the program that have been read,
the number of frames and how long each of them takes, and the interpreter that is set up. -/
structure Headless (argv : List String) (readFile : FileReader) (entropy : Array UInt32) where
  arguments : Arguments
  rom : Bytes
  frames : Int
  dt : Binary64
  interpreter : Interpreter
  argv_read : Arguments.read argv = .ok arguments
  accepted : Accepted arguments
  rom_read : romOf arguments readFile = .ok rom
  fits : rom.length ≤ 3584
  frames_eq : arguments.headless = some frames
  frameTime_eq : frameTime arguments.fps = .ok dt
  interpreter_eq : Interpreter.ofSettings arguments.interpreterSettings entropy = .ok interpreter

namespace Headless

variable (h : Headless argv readFile entropy)

/-- What a host asks of the interpreter in place of the run. -/
def commands : List Command := headlessCommands h.rom h.frames h.dt

/-- The errors that the interpreter comes to. -/
def errors : List Error := Interpreter.errors h.commands h.interpreter

/-- The screen that is left. -/
def screen : Screen := (Interpreter.performAll h.commands h.interpreter).machine.screen

/-- The log of the program and the interpreter. -/
def log : String :=
  logText h.arguments.logLevel (.starting (programOf h.arguments) h.arguments.clock ::
    Interpreter.notes h.commands h.interpreter)

end Headless

/-- What a run without a window can come to. -/
inductive Ends (argv : List String) (readFile : FileReader) (entropy : Array UInt32) :
    Report → Prop
  /-- The arguments are bad, or help is asked for. -/
  | left {l : Leave} (hargv : Arguments.read argv = .error l) :
      Ends argv readFile entropy (leave l)
  /-- No program is named. -/
  | unnamed {a : Arguments} (hargv : Arguments.read argv = .ok a) (hdemo : a.demo = false)
      (hrom : a.rom = none) :
      Ends argv readFile entropy (leave (.complaint "a ROM path or --demo is required"))
  /-- The clock does not run. -/
  | stopped {a : Arguments} (hargv : Arguments.read argv = .ok a)
      (named : a.demo = true ∨ a.rom.isSome = true) (hclock : a.clock ≤ 0) :
      Ends argv readFile entropy (leave (.complaint (Refusal.clockNotPositive a.clock).text))
  /-- The ROM cannot be read. -/
  | unreadable {a : Arguments} {e : FileError} (hargv : Arguments.read argv = .ok a)
      (accepted : Accepted a) (hrom : romOf a readFile = .error e) (hsystem : e.refusal? = none) :
      Ends argv readFile entropy
        ⟨.ok 2, "", "Cannot read ROM: " ++ e.text (a.rom.getD "") ++ "\n", none⟩
  /-- The program does not fit. -/
  | tooLarge {a : Arguments} {rom : Bytes} (hargv : Arguments.read argv = .ok a)
      (accepted : Accepted a) (hrom : romOf a readFile = .ok rom) (large : 3584 < rom.length) :
      Ends argv readFile entropy
        ⟨.ok 1, "", logText a.logLevel [.starting (programOf a) a.clock] ++
          ("Emulation halted: " ++ (Cause.programTooLarge rom.length 3584).text ++ "\n"), none⟩
  /-- The last frame has been made, without an error. -/
  | finished (h : Headless argv readFile entropy) (herrors : h.errors = []) :
      Ends argv readFile entropy ⟨.ok 0, h.screen.render "X" " " ++ "\n", h.log, none⟩
  /-- An instruction of the program cannot be carried out. -/
  | halted (h : Headless argv readFile entropy) {f : Fault} (herrors : h.errors = [.fault f])
      (hf : f.OfInstruction) :
      Ends argv readFile entropy
        ⟨.ok 1, "", h.log ++ ("Emulation halted: " ++ f.text ++ "\n"), none⟩
  /-- An error gets out. -/
  | escaped {a : Arguments} {r : Refusal} (hargv : Arguments.read argv = .ok a)
      (h : Escapes a readFile r) (log : String) :
      Ends argv readFile entropy ⟨.error (.refusal r), "", log, none⟩

/-- What is listed does get out. -/
theorem run_of_escapes (hargv : Arguments.read argv = .ok a) (h : Escapes a readFile r)
    (entropy : Array UInt32) (desktop : Option Desktop) :
    ∃ log, run argv readFile entropy desktop = ⟨.error (.refusal r), "", log, none⟩ := by
  cases h with
  | rejected accepted hrom hpath =>
    rw [run_of_unreadable hargv accepted hrom, reportUnreadable, hpath]
    exact ⟨"", rfl⟩
  | badRate accepted hrom fits hframes hrate =>
    obtain ⟨i, hi⟩ := exists_ofSettings accepted.clock entropy
    have hresult := result_headless_of_badRate hi fits hrate
    rw [run_of_headless hargv accepted hframes hrom hi, reportHeadless, hresult]
    exact ⟨_, rfl⟩

/-- A run that gets under way is reported as the interpreter ends. -/
theorem ends_reportHeadless (h : Headless argv readFile entropy) {o : Outcome Interpreter Unit}
    (ho : FaultsAs h.commands h.interpreter o) :
    Ends argv readFile entropy
      (reportHeadless h.arguments [.starting (programOf h.arguments) h.arguments.clock] o) := by
  have herrors : h.errors = (Interpreter.error? o.result).toList := ho.errors
  have hscreen : h.screen = o.state.machine.screen := congrArg (·.machine.screen) ho.state
  have hlog : h.log = logText h.arguments.logLevel
      ([.starting (programOf h.arguments) h.arguments.clock] ++ o.log) := by
    rw [Headless.log, ho.notes, List.singleton_append]
  rw [reportHeadless, ← hlog, ← hscreen]
  cases hr : o.result with
  | ok _ =>
    rw [hr] at herrors
    exact .finished h herrors
  | error e =>
    obtain ⟨f, rfl, hf⟩ := ho.ofInstruction e hr
    rw [hr] at herrors
    exact .halted h herrors hf

theorem ends_run_of_accepted (hargv : Arguments.read argv = .ok a) (accepted : Accepted a)
    (hframes : a.headless = some frames) (entropy : Array UInt32) (desktop : Option Desktop) :
    Ends argv readFile entropy (run argv readFile entropy desktop) := by
  have hescaped {r : Refusal} (h : Escapes a readFile r) :
      Ends argv readFile entropy (run argv readFile entropy desktop) := by
    obtain ⟨log, hlog⟩ := run_of_escapes hargv h entropy desktop
    rw [hlog]
    exact .escaped hargv h log
  cases hrom : romOf a readFile with
  | error e =>
    cases hpath : e.refusal? with
    | some r => exact hescaped (.rejected accepted hrom hpath)
    | none =>
      rw [run_of_unreadable hargv accepted hrom, reportUnreadable, hpath]
      exact .unreadable hargv accepted hrom hpath
  | ok rom =>
    obtain ⟨i, hi⟩ := exists_ofSettings accepted.clock entropy
    have hreport : run argv readFile entropy desktop =
        reportHeadless a [.starting (programOf a) a.clock] (headless rom frames a.fps i) :=
      run_of_headless hargv accepted hframes hrom hi
    by_cases fits : rom.length ≤ maxProgramSize
    · by_cases hbad : ∃ r, BadRate a frames r
      · obtain ⟨r, hrate⟩ := hbad
        exact hescaped (.badRate accepted hrom fits hframes hrate)
      · obtain ⟨dt, hdt, ho⟩ := exists_faultsAs_headless hi fits (not_exists.1 hbad)
        rw [hreport]
        exact ends_reportHeadless
          ⟨a, rom, frames, dt, i, hargv, accepted, hrom, fits, hframes, hdt, hi⟩ ho
    · have large := Nat.lt_of_not_le fits
      rw [hreport, headless_of_too_large hi large]
      exact .tooLarge hargv accepted hrom large

theorem ends_run (hheadless : ∀ a, Arguments.read argv = .ok a → a.headless.isSome = true)
    (readFile : FileReader) (entropy : Array UInt32) (desktop : Option Desktop) :
    Ends argv readFile entropy (run argv readFile entropy desktop) := by
  cases hargv : Arguments.read argv with
  | error l =>
    rw [run, hargv]
    exact .left hargv
  | ok a =>
    obtain ⟨frames, hframes⟩ := Option.isSome_iff_exists.1 (hheadless a hargv)
    by_cases named : a.demo = true ∨ a.rom.isSome = true
    · by_cases hclock : 0 < a.clock
      · exact ends_run_of_accepted hargv ⟨named, hclock⟩ hframes entropy desktop
      · have hstopped : a.clock ≤ 0 := Int.not_lt.1 hclock
        have hsettings : a.settings = .error (.clockNotPositive a.clock) := if_pos hstopped
        rw [run, hargv]
        dsimp only
        rw [runArguments, if_neg (fun h ↦ unnamed_iff.1 h named), hsettings]
        exact .stopped hargv named hstopped
    · rw [run, hargv]
      dsimp only
      rw [runArguments, if_pos (unnamed_iff.2 named)]
      simp only [not_or, Bool.not_eq_true, Option.isSome_eq_false_iff, Option.isNone_iff_eq_none]
        at named
      exact .unnamed hargv named.1 named.2

/-- A run without a window ends in one of the ways that it is prepared for, or an error gets out.
It ends with 0 only if the interpreter comes to no error, and prints the screen that is left, and
with 1 only if the program is too large or the interpreter comes to a fault, which is reported.  The
errors that get out are the listed ones: with arguments that name a program, at a clock rate that is
positive, a path that no system takes, and if the program can be read and fits, a frame rate that is
zero or does not fit a double, and if there are frames, a frame rate below zero or a clock rate that
does not fit a double.  Other arguments do not matter, nor what the program does. -/
theorem headless_ends_or_escapes
    (hheadless : ∀ a, Arguments.read argv = .ok a → a.headless.isSome = true)
    (readFile : FileReader) (entropy : Array UInt32) (desktop : Option Desktop) :
    Ends argv readFile entropy (run argv readFile entropy desktop) ∧
      ∀ e, (run argv readFile entropy desktop).ending = .error e ↔
        ∃ a r, Arguments.read argv = .ok a ∧ Escapes a readFile r ∧ e = .refusal r := by
  refine ⟨ends_run hheadless readFile entropy desktop, fun e ↦ ⟨fun he ↦ ?_, ?_⟩⟩
  · have hends := ends_run hheadless readFile entropy desktop
    generalize run argv readFile entropy desktop = report at he hends
    cases hends with
    | escaped hargv h log =>
      cases he
      exact ⟨_, _, hargv, h, rfl⟩
    | _ => cases he
  · rintro ⟨a, r, hargv, h, rfl⟩
    obtain ⟨log, hrun⟩ := run_of_escapes hargv h entropy desktop
    rw [hrun]

/-- Neither a size of zero nor a negative tone nor a negative number of frames lets an error out. -/
theorem odd_numbers_do_not_escape :
    let a : Arguments :=
      { demo := true, scale := 0, tone := -440, seed := some (-1), headless := some (-5) }
    ¬ ∃ e, (run a.spelling (.ofTable []) #[] none).ending = .error e := by
  rintro a ⟨e, he⟩
  have hargv : Arguments.read a.spelling = .ok a := by
    refine Arguments.read_spelling ⟨?_, ?_, ?_, ?_, ?_, ?_⟩ <;> decide +kernel
  have hheadless : ∀ b, Arguments.read a.spelling = .ok b → b.headless.isSome = true := by
    intro b hb
    cases hargv.symm.trans hb
    rfl
  obtain ⟨-, hescapes⟩ := headless_ends_or_escapes hheadless (.ofTable []) #[] none
  obtain ⟨b, r, hb, h, -⟩ := (hescapes e).1 he
  cases hargv.symm.trans hb
  cases h with
  | rejected _ hrom _ => cases hrom
  | badRate _ _ _ hframes hrate =>
    cases hframes
    cases hrate with
    | fpsTooLarge hfps => exact absurd hfps (by decide +kernel)
    | fpsZero hfps => cases hfps
    | fpsNegative hfps _ _ => exact absurd hfps (by decide)
    | clockTooLarge _ _ _ hframes => exact absurd hframes (by decide)

/-- Three runs that no error should get out of. -/
theorem rates_and_paths_escape :
    let ending := fun argv ↦ (run argv (.ofTable []) #[] none).ending
    ending ["--demo", "--headless", "1", "--fps", "0"] = .error (.refusal .divisionByZero) ∧
    ending ["--demo", "--headless", "1", "--fps", "-1"] =
      .error (.refusal (.negativeTime (.finite (-1)))) ∧
    ending ["--headless", "1", "--", "a\x00b"] = .error (.refusal .nullInPath) := by
  intro ending
  have hending {b : Arguments} {r : Refusal} (cs : List Choice) (rom : Option String)
      (hcs : ∀ c ∈ cs, c.Sound) (hlead : Choice.Lead cs {} b) (hrom : b.rom = none)
      (h : Escapes { b with rom := rom } (.ofTable []) r) :
      ending (cs.flatMap Choice.words ++ rom.elim [] fun path ↦ ["--", path]) =
        .error (.refusal r) := by
    obtain ⟨log, hrun⟩ := run_of_escapes (Arguments.read_words hcs hlead hrom rom) h #[] none
    exact congrArg Report.ending hrun
  have hone : Binary64.ofInt? (-1) = some (.finite (-1)) := by decide +kernel
  have hduration : Binary64.ofRat (1 / -1) = .finite (-1) := by decide +kernel
  have hnull : FileReader.ofTable [] "a\x00b" = .error .nullByte := by decide +kernel
  refine ⟨?_, ?_, ?_⟩
  · exact hending [.flag .demo, .value .headless "1", .value .fps "0"] none
      (by decide +kernel) rfl rfl
      (.badRate ⟨.inl rfl, by decide⟩ rfl (by decide) rfl (.fpsZero rfl))
  · rw [← hduration]
    exact hending [.flag .demo, .value .headless "1", .value .fps "-1"] none
      (by decide +kernel) rfl rfl
      (.badRate ⟨.inl rfl, by decide⟩ rfl (by decide) rfl
        (.fpsNegative (by decide) hone (by decide)))
  · exact hending [.value .headless "1"] (some "a\x00b") (by decide +kernel) rfl rfl
      (.rejected ⟨.inr rfl, by decide⟩ hnull rfl)

end CommandLine

end ChipEight
