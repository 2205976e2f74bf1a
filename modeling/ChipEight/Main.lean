import ChipEight.CommandLine.Run

/-!
# The program

Reads the file that the command line names, runs, and prints the report.
-/

namespace ChipEight

/-- Reads a file of the system. -/
def readSystemFile (path : String) : IO (Except FileError Bytes) := do
  try
    let contents ← IO.FS.readBinFile path
    pure (.ok contents.toList)
  catch
    | .noFileOrDirectory .. => pure (.error (.notOpened 2 "No such file or directory"))
    | .permissionDenied .. => pure (.error (.notOpened 13 "Permission denied"))
    | .inappropriateType .. => pure (.error (.notOpened 20 "Not a directory"))
    | _ => pure (.error (.notOpened 21 "Is a directory"))

/-- Words of the system's choice, as many as a generator has. -/
def systemEntropy : IO (Array UInt32) :=
  (Array.range twisterSize).mapM fun _ ↦ do
    let n ← IO.rand 0 0xFFFFFFFF
    pure (UInt32.ofNat n)

end ChipEight

open ChipEight in
def main (argv : List String) : IO UInt32 := do
  let path? := (Arguments.read argv).toOption.bind fun a ↦ if a.demo then none else a.rom
  let contents ← match path? with
    | some path => readSystemFile path
    | none => pure (.error (.notOpened 2 "No such file or directory"))
  let report := CommandLine.run argv (fun _ ↦ contents) (← systemEntropy) none
  IO.print report.output
  IO.eprint report.errors
  match report.ending with
  | .ok code => pure (UInt32.ofNat code)
  | .error e =>
    IO.eprintln e.text
    pure 1
