import ChipEight.Numeral.Hex

/-!
# Faults

A fault says why an instruction, or an access on behalf of the host, could not be carried out. It
carries the address of the instruction when there is one. `Fault.text` is what a user reads.
-/

namespace ChipEight

/-- What an index that is out of bounds was meant to point into. -/
inductive Space where
  | memory
  | key
  | pixel
  | other (name : String)
deriving DecidableEq, Repr

namespace Space

/-- The word for the space in messages. -/
def name : Space → String
  | .memory => "memory"
  | .key => "key"
  | .pixel => "pixel"
  | .other name => name

end Space

/-- Why something could not be carried out. -/
inductive Cause where
  | unknownOpcode (word : Int)
  | stackOverflow (text : String)
  | stackUnderflow (text : String)
  | outOfBounds (space : Space) (index : Int)
  | programTooLarge (size limit : Int)
  | other (text : String)
deriving DecidableEq, Repr

namespace Cause

/-- The cause in words. -/
def text : Cause → String
  | .unknownOpcode word => "Unknown opcode: " ++ Numeral.padHex 4 word
  | .stackOverflow text | .stackUnderflow text | .other text => text
  | .outOfBounds space index =>
    space.name ++ " index " ++ Numeral.hexLiteral index ++ " out of range"
  | .programTooLarge size limit =>
    "ROM is too large for memory (" ++ toString size ++ " > " ++ toString limit ++ " bytes)"

end Cause

/-- A cause, and the address of the instruction that it stopped. -/
structure Fault where
  cause : Cause
  address : Option Int
deriving DecidableEq, Repr

namespace Fault

/-- The cause in words, followed by the address if there is one. -/
def text (f : Fault) : String :=
  match f.address with
  | none => f.cause.text
  | some a => f.cause.text ++ " at PC " ++ Numeral.padHex 3 a

end Fault

end ChipEight
