/-!
# Memory map, screen geometry and the built-in font

The fixed measures of the machine, the sixteen hexadecimal glyphs that every program finds in low
memory, and the demonstration program.
-/

namespace ChipEight

/-- A string of bytes, first byte first. -/
abbrev Bytes := List UInt8

/-- The number of bytes of main memory. -/
abbrev memorySize : Nat := 4096

/-- Programs are placed here, and execution starts here. -/
abbrev startAddress : Nat := 0x200

/-- The glyphs of the font are placed here. -/
abbrev fontAddress : Nat := 0x50

/-- The largest program: what is left of memory behind the start address. -/
abbrev maxProgramSize : Nat := memorySize - startAddress

/-- Pixels in a row of the screen. -/
abbrev screenWidth : Nat := 64

/-- Rows of the screen. -/
abbrev screenHeight : Nat := 32

/-- Pixels in a row of a sprite. -/
abbrev spriteWidth : Nat := 8

/-- The number of byte registers. -/
abbrev registerCount : Nat := 16

/-- The number of return addresses that the call stack holds. -/
abbrev stackSize : Nat := 128

/-- The number of keys of the keypad. -/
abbrev keyCount : Nat := 16

/-- Bytes, that is rows, of one glyph of the font. -/
abbrev glyphSize : Nat := 5

/-- The number of glyphs of the font: one for each hexadecimal digit. -/
abbrev glyphCount : Nat := 16

/-- Instructions per second when nothing else is asked for. -/
abbrev defaultClockRate : Nat := 500

/-- Timer ticks per second when nothing else is asked for. -/
abbrev defaultTimerRate : Nat := 60

/-- The glyphs of the digits `0` to `F`, four pixels wide and five rows high. -/
def builtInFont : Bytes :=
  [0xF0, 0x90, 0x90, 0x90, 0xF0,
   0x20, 0x60, 0x20, 0x20, 0x70,
   0xF0, 0x10, 0xF0, 0x80, 0xF0,
   0xF0, 0x10, 0xF0, 0x10, 0xF0,
   0x90, 0x90, 0xF0, 0x10, 0x10,
   0xF0, 0x80, 0xF0, 0x10, 0xF0,
   0xF0, 0x80, 0xF0, 0x90, 0xF0,
   0xF0, 0x10, 0x20, 0x40, 0x40,
   0xF0, 0x90, 0xF0, 0x90, 0xF0,
   0xF0, 0x90, 0xF0, 0x10, 0xF0,
   0xF0, 0x90, 0xF0, 0x90, 0x90,
   0xE0, 0x90, 0xE0, 0x90, 0xE0,
   0xF0, 0x80, 0x80, 0x80, 0xF0,
   0xE0, 0x90, 0x90, 0x90, 0xE0,
   0xF0, 0x80, 0xF0, 0x80, 0xF0,
   0xF0, 0x80, 0xF0, 0x80, 0x80]

@[simp] theorem length_builtInFont : builtInFont.length = glyphCount * glyphSize := rfl

/-- Draws the glyph of the digit in V0 at (8, 8), over and over. -/
def glyphDemo : Bytes :=
  [0x60, 0x00, 0xF0, 0x29, 0x61, 0x08, 0x62, 0x08, 0xD1, 0x25, 0x12, 0x00]

end ChipEight
