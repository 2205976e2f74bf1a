import ChipEight.CommandLine.Flag
import ChipEight.Text.DecimalDigit

/-!
# Kinds of arguments

Each argument is an option, an operand or the separator behind which all are operands. A long option
may be cut short as long as no other begins alike, and may have its value behind an equals sign. A
negative number or a text with a space is an operand although it begins with a dash.
-/

namespace ChipEight

/-- A value written in the same argument as an option. -/
inductive Attachment where
  /-- No value. -/
  | none
  /-- A value behind an equals sign. -/
  | equals (value : String)
  /-- Letters behind the letter of a short option. -/
  | letters (value : String)
deriving DecidableEq, Repr

/-- The value behind an equals sign, if there is one. -/
def Attachment.ofValue : Option (List Char) → Attachment
  | Option.none => .none
  | some value => .equals (String.ofList value)

/-- What an argument is. -/
inductive Token where
  | operand (text : String)
  | separator
  | option (flag : Flag) (attached : Attachment)
  | unknown (text : String)
deriving DecidableEq, Repr

namespace Token

/-- The text of a token among arguments that have no place. -/
def text : Token → String
  | .operand text | .unknown text => text
  | .separator => "--"
  | .option flag _ => flag.longName

/-- The token is an option, known or not. -/
def isOption : Token → Bool
  | .option .. | .unknown _ => true
  | .operand _ | .separator => false

/-- The text up to the first equals sign and, if there is one, the text behind it. -/
def splitAtEquals (cs : List Char) : List Char × Option (List Char) :=
  match cs.dropWhile (· ≠ '=') with
  | [] => (cs, none)
  | _ :: value => (cs.takeWhile (· ≠ '='), some value)

/-- A digit, then digits only. A line break may end the text. -/
def isDigits (cs : List Char) : Bool :=
  let (digits, rest) := (cs.takeWhile Text.isDecimalDigit, cs.dropWhile Text.isDecimalDigit)
  !digits.isEmpty && (rest == [] || rest == ['\n'])

/-- A dash and a number, which may have decimals. -/
def isNegativeNumber (cs : List Char) : Bool :=
  match cs with
  | '-' :: rest =>
    isDigits rest ||
      match rest.dropWhile Text.isDecimalDigit with
      | '.' :: decimals => isDigits decimals
      | _ => false
  | _ => false

/-- The options that an argument with one or two dashes may be short for, with what is attached. -/
def candidates (cs : List Char) : List (Flag × Attachment) :=
  match cs with
  | '-' :: '-' :: _ =>
    let (beginning, value) := splitAtEquals cs
    (Flag.ofBeginning (String.ofList beginning)).map fun f ↦ (f, Attachment.ofValue value)
  | '-' :: c :: rest =>
    (Flag.ofLetter? c).toList.map fun f ↦ (f, .letters (String.ofList rest))
  | _ => []

/-- The kind of an argument in front of any separator. More than one option that it may be short for
is an error. -/
def classify (s : String) : Except String Token :=
  let cs := s.toList
  if cs.head? ≠ some '-' then .ok (.operand s)
  else match Flag.ofSpelling? s with
    | some f => .ok (.option f .none)
    | none =>
      if cs.length = 1 then .ok (.operand s)
      else
        let (spelling, value) := splitAtEquals cs
        match Flag.ofSpelling? (String.ofList spelling), value with
        | some f, some value => .ok (.option f (.equals (String.ofList value)))
        | _, _ =>
          match candidates cs with
          | [(f, attached)] => .ok (.option f attached)
          | first :: second :: more =>
            .error ("ambiguous option: " ++ s ++ " could match " ++
              ", ".intercalate ((first :: second :: more).map (·.1.longName)))
          | [] =>
            if isNegativeNumber cs || ' ' ∈ cs then .ok (.operand s) else .ok (.unknown s)

/-- The kinds of all arguments. -/
def ofArguments : List String → Except String (List Token)
  | [] => .ok []
  | "--" :: rest => .ok (.separator :: rest.map .operand)
  | s :: rest => do
    let t ← classify s
    let ts ← ofArguments rest
    pure (t :: ts)

end Token

end ChipEight
