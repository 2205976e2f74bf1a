import ChipEight.CommandLine.Flag

/-!
# Usage and help

What the program prints about itself, laid out for eighty columns.
-/

namespace ChipEight

namespace CommandLine

/-- The name under which the program is called. -/
def programName : String := "chipemu"

/-- How the program is called. -/
def usage : String :=
  "usage: chipemu [-h] [--demo] [--scale SCALE] [--clock CLOCK] [--fps FPS]\n" ++
  "               [--legacy-store] [--tone TONE] [--debug] [--seed SEED]\n" ++
  "               [--headless FRAMES] [--log-level \x7bDEBUG,INFO,WARNING,ERROR\x7d]\n" ++
  "               [rom]\n"

/-- What the arguments are for. -/
def help : String :=
  usage ++
  "\nCHIP-8 emulator in Python by D/V\n" ++
  "\npositional arguments:\n" ++
  "  rom                   Path to CHIP-8 ROM\n" ++
  "\noptions:\n" ++
  "  -h, --help            show this help message and exit\n" ++
  "  --demo                Run the built-in glyph demo instead of a ROM\n" ++
  "  --scale SCALE         Pixel scale factor (default 15)\n" ++
  "  --clock CLOCK         CPU clock in Hz (default 500)\n" ++
  "  --fps FPS             Frame rate of the window (default 60)\n" ++
  "  --legacy-store        Use original FX55/FX65 quirk (I increments)\n" ++
  "  --tone TONE           Beep tone frequency in Hz\n" ++
  "  --debug               Log and skip unknown opcodes instead of halting\n" ++
  "  --seed SEED           Seed for the CXNN random source\n" ++
  "  --headless FRAMES     Run FRAMES 1/60 s frames without a window and print\n" ++
  "                        the screen\n" ++
  "  --log-level \x7bDEBUG,INFO,WARNING,ERROR\x7d\n" ++
  "                        Logging verbosity (default WARNING)\n"

/-- The message about a bad call. -/
def complaint (text : String) : String := usage ++ programName ++ ": error: " ++ text ++ "\n"

end CommandLine

end ChipEight
