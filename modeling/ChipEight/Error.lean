import ChipEight.Fault
import ChipEight.Layout
import ChipEight.Numeral.Shortest

/-!
# Errors

What can come back from a request in place of an answer: a fault of the machine, or a refusal of a
request that makes no sense.
-/

namespace ChipEight

/-- Why a request of the host is refused. -/
inductive Refusal where
  | notAByte (value : Int)
  | fontSize (size : Nat)
  | keyStates (count : Nat)
  | clockNotPositive (rate : Int)
  | ratesNotPositive
  | negativeTime (step : Binary64)
  | negativeShift
  | notANumber
  | infinite
  | integerTooLarge
  | divisionByZero
  | nullInPath
  | pathNotEncodable (reason : String)
  | busy
deriving DecidableEq

namespace Refusal

/-- The refusal in words. -/
def text : Refusal → String
  | .notAByte value => "not a byte: " ++ toString value
  | .fontSize size =>
    "font must be " ++ toString (glyphCount * glyphSize) ++ " bytes, got " ++ toString size
  | .keyStates count => "expected " ++ toString keyCount ++ " key states, got " ++ toString count
  | .clockNotPositive rate => "clock must be positive, got " ++ toString rate
  | .ratesNotPositive => "clock and timer frequencies must be positive"
  | .negativeTime step => "negative time step: " ++ step.text
  | .negativeShift => "negative shift count"
  | .notANumber => "cannot convert float NaN to integer"
  | .infinite => "cannot convert float infinity to integer"
  | .integerTooLarge => "int too large to convert to float"
  | .divisionByZero => "float division by zero"
  | .nullInPath => "embedded null byte"
  | .pathNotEncodable reason => reason
  | .busy => "cannot load a program in the middle of an instruction"

end Refusal

/-- What comes back in place of an answer. -/
inductive Error where
  | fault (fault : Fault)
  | refusal (refusal : Refusal)
deriving DecidableEq

namespace Error

/-- The error in words. -/
def text : Error → String
  | .fault f => f.text
  | .refusal r => r.text

/-- A fault outside of any instruction. -/
def ofCause (cause : Cause) : Error := .fault ⟨cause, none⟩

instance : Coe Refusal Error := ⟨refusal⟩

end Error

end ChipEight
