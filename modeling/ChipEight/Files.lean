import ChipEight.Error
import ChipEight.Text.Quoted

/-!
# Files

What comes of a path that is opened and read. The files themselves belong to the system: a
`FileReader` may give any contents or any error for any path.
-/

namespace ChipEight

/-- Why the file at a path cannot be read. -/
inductive FileError where
  /-- The system does not open it, with the number and the words of its error. -/
  | notOpened (number : Nat) (words : String)
  /-- The system opens it and fails while it is read. -/
  | notRead (number : Nat) (words : String)
  /-- The path holds a null character, with which the system would end it. -/
  | nullByte
  /-- The path holds a character that the system has no bytes for. -/
  | notEncodable (reason : String)
deriving DecidableEq, Repr

namespace FileError

/-- The refusal of a path that is no matter of the system, if it is one. -/
def refusal? : FileError → Option Refusal
  | .notOpened _ _ | .notRead _ _ => none
  | .nullByte => some .nullInPath
  | .notEncodable reason => some (.pathNotEncodable reason)

/-- The number and the words of an error of the system. -/
def systemText (number : Nat) (words : String) : String :=
  "[Errno " ++ toString number ++ "] " ++ words

/-- An error in words, with the path where that could not be opened. -/
def text (path : String) : FileError → String
  | .notOpened number words => systemText number words ++ ": " ++ Text.quoted path
  | .notRead number words => systemText number words
  | .nullByte => "embedded null byte"
  | .notEncodable reason => reason

end FileError

/-- What comes of each path when it is read. -/
abbrev FileReader := String → Except FileError Bytes

end ChipEight
