import ChipEight.Text.Quoted

/-!
# Options of the command line

The options in the order in which they are listed, each with its spellings, the name of its value if
it takes one, and its line in the help text.
-/

namespace ChipEight

/-- An option of the command line. -/
inductive Flag where
  | help
  | demo
  | scale
  | clock
  | fps
  | legacyStore
  | tone
  | debug
  | seed
  | headless
  | logLevel
deriving DecidableEq, Repr

namespace Flag

/-- All options, in the order in which they are listed. -/
def all : List Flag :=
  [.help, .demo, .scale, .clock, .fps, .legacyStore, .tone, .debug, .seed, .headless, .logLevel]

/-- The long spelling, behind two dashes. -/
def longName : Flag → String
  | .help => "--help"
  | .demo => "--demo"
  | .scale => "--scale"
  | .clock => "--clock"
  | .fps => "--fps"
  | .legacyStore => "--legacy-store"
  | .tone => "--tone"
  | .debug => "--debug"
  | .seed => "--seed"
  | .headless => "--headless"
  | .logLevel => "--log-level"

/-- The letter of the short spelling, behind one dash. -/
def letter? : Flag → Option Char
  | .help => some 'h'
  | _ => none

/-- The short spelling. -/
def shortName? (f : Flag) : Option String := f.letter?.map fun c ↦ String.ofList ['-', c]

/-- Both spellings, the short one first. -/
def spellings (f : Flag) : List String := f.shortName?.toList ++ [f.longName]

/-- The option in messages. -/
def display (f : Flag) : String := "/".intercalate f.spellings

/-- The option is followed by a value. -/
def takesValue : Flag → Bool
  | .help | .demo | .legacyStore | .debug => false
  | .scale | .clock | .fps | .tone | .seed | .headless | .logLevel => true

/-- The option with exactly this spelling. -/
def ofSpelling? (s : String) : Option Flag := all.find? fun f ↦ s ∈ f.spellings

/-- The option with this letter. -/
def ofLetter? (c : Char) : Option Flag := all.find? fun f ↦ f.letter? == some c

/-- The options with a long spelling that begins like this. -/
def ofBeginning (s : String) : List Flag := all.filter fun f ↦ s.toList.isPrefixOf f.longName.toList

@[simp] theorem ofSpelling?_longName (f : Flag) : ofSpelling? f.longName = some f := by
  cases f <;> decide +kernel

end Flag

end ChipEight
