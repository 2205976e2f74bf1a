import ChipEight.CommandLine.Help
import ChipEight.CommandLine.Token
import ChipEight.Note
import ChipEight.Numeral.Integer
import ChipEight.Settings

/-!
# Reading the command line

Arguments are read from left to right, and of an option that is given twice the last value counts.
Reading ends with the arguments, or with a reason to leave: a request for help or a complaint.
-/

namespace ChipEight

/-- What the command line says. -/
structure Arguments where
  rom : Option String := none
  demo : Bool := false
  scale : Int := 15
  clock : Int := 500
  fps : Int := 60
  legacyStore : Bool := false
  tone : Int := 440
  debug : Bool := false
  seed : Option Int := none
  headless : Option Int := none
  logLevel : Level := .warning
deriving DecidableEq, Repr

/-- Why the program ends before it begins. -/
inductive Leave where
  | help
  | complaint (text : String)
deriving DecidableEq, Repr

namespace Leave

/-- What is printed on the way out. -/
def output : Leave → String
  | .help => CommandLine.help
  | .complaint _ => ""

/-- What is written to the error stream on the way out. -/
def errors : Leave → String
  | .help => ""
  | .complaint text => CommandLine.complaint text

/-- The exit code. -/
def code : Leave → Nat
  | .help => 0
  | .complaint _ => 2

end Leave

namespace Arguments

/-- A complaint about an option. -/
def complain {α : Type} (f : Flag) (text : String) : Except Leave α :=
  .error (.complaint ("argument " ++ f.display ++ ": " ++ text))

/-- The value of an option that takes an integer. -/
def integer (f : Flag) (value : String) : Except Leave Int :=
  match Numeral.integer? value with
  | some n => .ok n
  | none => complain f ("invalid int value: " ++ Text.quoted value)

/-- The value of the option for the level of the log. -/
def level (f : Flag) (value : String) : Except Leave Level :=
  match Level.ofName? value with
  | some l => .ok l
  | none =>
    complain f ("invalid choice: " ++ Text.quoted value ++ " (choose from " ++
      ", ".intercalate (Level.all.map fun l ↦ Text.quoted l.name) ++ ")")

/-- The arguments with an option that takes no value set. -/
def setFlag (a : Arguments) (f : Flag) : Except Leave Arguments :=
  match f with
  | .help => .error .help
  | .demo => .ok { a with demo := true }
  | .legacyStore => .ok { a with legacyStore := true }
  | .debug => .ok { a with debug := true }
  | .scale | .clock | .fps | .tone | .seed | .headless | .logLevel => .ok a

/-- The arguments with an option set to a value. -/
def setValue (a : Arguments) (f : Flag) (value : String) : Except Leave Arguments :=
  match f with
  | .scale => (integer f value).map fun n ↦ { a with scale := n }
  | .clock => (integer f value).map fun n ↦ { a with clock := n }
  | .fps => (integer f value).map fun n ↦ { a with fps := n }
  | .tone => (integer f value).map fun n ↦ { a with tone := n }
  | .seed => (integer f value).map fun n ↦ { a with seed := some n }
  | .headless => (integer f value).map fun n ↦ { a with headless := some n }
  | .logLevel => (level f value).map fun l ↦ { a with logLevel := l }
  | .help | .demo | .legacyStore | .debug => .ok a

/-- A complaint about a value for an option that takes none. -/
def ignored {α : Type} (f : Flag) (value : String) : Except Leave α :=
  complain f ("ignored explicit argument " ++ Text.quoted value)

/-- The options whose letters stand together behind that of `f`, and the rest if it starts with a
letter of no option. -/
def cluster (f : Flag) : List Char → Except Leave (List Flag × Option String)
  | [] => .ok ([f], none)
  | c :: rest =>
    if c = '-' then ignored f (String.ofList (c :: rest))
    else match Flag.ofLetter? c, rest with
      | none, _ => .ok ([f], some (String.ofList ('-' :: c :: rest)))
      | some g, '=' :: value => ignored g (String.ofList value)
      | some g, rest => (cluster g rest).map fun (gs, left) ↦ (f :: gs, left)

/-- What has been read so far: the values, whether a ROM has been named, and the arguments that have
no place. -/
structure Progress where
  arguments : Arguments
  romTaken : Bool
  extras : List String

namespace Progress

/-- Adds an argument that has no place. -/
def addExtra (p : Progress) (text : String) : Progress :=
  { p with extras := p.extras ++ [text] }

/-- Reads an operand: the first one names the ROM. -/
def operand (p : Progress) (text : String) : Progress :=
  if p.romTaken then p.addExtra text
  else { p with arguments := { p.arguments with rom := some text }, romTaken := true }

/-- Sets options that take no value. -/
def setFlags (p : Progress) (fs : List Flag) : Except Leave Progress :=
  (fs.foldlM setFlag p.arguments).map fun a ↦ { p with arguments := a }

/-- Sets an option to a value. -/
def setValue (p : Progress) (f : Flag) (value : String) : Except Leave Progress :=
  (p.arguments.setValue f value).map fun a ↦ { p with arguments := a }

/-- Reads what is left when no option is ahead. A separator beside the operand that names the ROM is
dropped. -/
def operands (p : Progress) (ts : List Token) : Progress :=
  if p.romTaken then ts.foldl (fun p t ↦ p.addExtra t.text) p
  else
    let rest (p : Progress) (ts : List Token) := ts.foldl (fun p t ↦ p.addExtra t.text) p
    match ts with
    | [] | [.separator] => p
    | .separator :: t :: ts => rest (p.operand t.text) ts
    | t :: .separator :: ts => rest (p.operand t.text) ts
    | t :: ts => rest (p.operand t.text) ts

/-- Reads an option with what is attached to it and the tokens behind it; gives the tokens that are
left. -/
def option (p : Progress) (f : Flag) (attached : Attachment) (ts : List Token) :
    Except Leave (Progress × List Token) :=
  if f.takesValue then
    match attached, ts with
    | .equals value, ts | .letters value, ts => (p.setValue f value).map (·, ts)
    | .none, .operand value :: ts => (p.setValue f value).map (·, ts)
    | .none, _ => complain f "expected one argument"
  else
    match attached with
    | .none => (p.setFlags [f]).map (·, ts)
    | .equals value => ignored f value
    | .letters cs => do
      let (fs, left) ← cluster f cs.toList
      let p := left.elim p p.addExtra
      (p.setFlags fs).map (·, ts)

/-- Reading an option leaves no more tokens than there were behind it. -/
theorem option_length {p q : Progress} {f : Flag} {attached : Attachment} {ts us : List Token}
    (h : p.option f attached ts = .ok (q, us)) : us.length ≤ ts.length := by
  have of_map {x : Except Leave Progress} {vs : List Token}
      (hx : x.map (·, vs) = .ok (q, us)) : us = vs := by
    cases x <;> simp_all [Except.map]
  unfold option at h
  split at h
  · split at h
    · exact Nat.le_of_eq (congrArg _ (of_map h))
    · exact Nat.le_of_eq (congrArg _ (of_map h))
    · rw [of_map h]; simp
    · simp [complain] at h
  · split at h
    · exact Nat.le_of_eq (congrArg _ (of_map h))
    · simp [ignored, complain] at h
    · rename_i cs
      cases hc : cluster f cs.toList with
      | error e => simp [hc, bind, Except.bind] at h
      | ok r =>
        simp only [hc, bind, Except.bind] at h
        exact Nat.le_of_eq (congrArg _ (of_map h))

/-- Reads tokens from left to right. -/
def tokens (p : Progress) (ts : List Token) : Except Leave Progress :=
  if ts.any Token.isOption then
    match ts with
    | [] => .ok p
    | .option f attached :: ts =>
      match _h : p.option f attached ts with
      | .error e => .error e
      | .ok (p, us) => p.tokens us
    | .unknown text :: ts => (p.addExtra text).tokens ts
    | .operand text :: ts => (p.operand text).tokens ts
    | .separator :: ts => (p.addExtra Token.separator.text).tokens ts
  else .ok (p.operands ts)
termination_by ts.length
decreasing_by
  · have := option_length _h
    simp only [List.length_cons]; omega
  all_goals simp

end Progress

/-- Reads the command line. -/
def read (argv : List String) : Except Leave Arguments := do
  let ts ← (Token.ofArguments argv).mapError .complaint
  let p ← Progress.tokens ⟨{}, false, []⟩ ts
  if p.extras.isEmpty then pure p.arguments
  else .error (.complaint ("unrecognized arguments: " ++ " ".intercalate p.extras))

/-- The settings that the arguments ask for. -/
def settings (a : Arguments) : Except Refusal Settings :=
  Settings.check
    { clockRate := a.clock
      debug := a.debug
      legacyStore := a.legacyStore
      seed := a.seed
      scale := a.scale
      toneRate := a.tone
      frameRate := a.fps
      logLevel := a.logLevel.name }

end Arguments

end ChipEight
