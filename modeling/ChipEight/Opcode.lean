import ChipEight.Word

/-!
# Operations

The thirty-four operations, each with its mnemonic and the pattern of its words. In a pattern the
letters `X`, `Y` and `N` stand for any digit. `Opcode.decode` finds the operation of a word.
-/

namespace ChipEight

/-- What an instruction does. -/
inductive Opcode where
  | clearScreen
  | ret
  | jump
  | call
  | skipIfByte
  | skipUnlessByte
  | skipIfEqual
  | setByte
  | addByte
  | copy
  | union
  | meet
  | difference
  | add
  | subtract
  | shiftRight
  | subtractFrom
  | shiftLeft
  | skipUnlessEqual
  | setIndex
  | jumpFrom
  | random
  | draw
  | skipIfPressed
  | skipUnlessPressed
  | readDelay
  | awaitKey
  | setDelay
  | setSound
  | addIndex
  | pointToGlyph
  | storeDecimal
  | storeRegisters
  | loadRegisters
deriving DecidableEq, Repr

namespace Opcode

/-- All operations, in the order of their patterns. -/
def all : List Opcode :=
  [.clearScreen, .ret, .jump, .call, .skipIfByte, .skipUnlessByte, .skipIfEqual, .setByte, .addByte,
   .copy, .union, .meet, .difference, .add, .subtract, .shiftRight, .subtractFrom, .shiftLeft,
   .skipUnlessEqual, .setIndex, .jumpFrom, .random, .draw, .skipIfPressed, .skipUnlessPressed,
   .readDelay, .awaitKey, .setDelay, .setSound, .addIndex, .pointToGlyph, .storeDecimal,
   .storeRegisters, .loadRegisters]

/-- The mnemonic of an operation. -/
def name : Opcode → String
  | .clearScreen => "CLS"
  | .ret => "RET"
  | .jump => "JP"
  | .call => "CALL"
  | .skipIfByte => "SE_BYTE"
  | .skipUnlessByte => "SNE_BYTE"
  | .skipIfEqual => "SE_REG"
  | .setByte => "LD_BYTE"
  | .addByte => "ADD_BYTE"
  | .copy => "LD_REG"
  | .union => "OR"
  | .meet => "AND"
  | .difference => "XOR"
  | .add => "ADD_REG"
  | .subtract => "SUB"
  | .shiftRight => "SHR"
  | .subtractFrom => "SUBN"
  | .shiftLeft => "SHL"
  | .skipUnlessEqual => "SNE_REG"
  | .setIndex => "LD_I"
  | .jumpFrom => "JP_V0"
  | .random => "RND"
  | .draw => "DRW"
  | .skipIfPressed => "SKP"
  | .skipUnlessPressed => "SKNP"
  | .readDelay => "LD_VX_DT"
  | .awaitKey => "LD_VX_K"
  | .setDelay => "LD_DT"
  | .setSound => "LD_ST"
  | .addIndex => "ADD_I"
  | .pointToGlyph => "LD_F"
  | .storeDecimal => "LD_B"
  | .storeRegisters => "LD_MEM"
  | .loadRegisters => "LD_REGS"

/-- The pattern of the words of an operation. -/
def pattern : Opcode → String
  | .clearScreen => "00E0"
  | .ret => "00EE"
  | .jump => "1NNN"
  | .call => "2NNN"
  | .skipIfByte => "3XNN"
  | .skipUnlessByte => "4XNN"
  | .skipIfEqual => "5XY0"
  | .setByte => "6XNN"
  | .addByte => "7XNN"
  | .copy => "8XY0"
  | .union => "8XY1"
  | .meet => "8XY2"
  | .difference => "8XY3"
  | .add => "8XY4"
  | .subtract => "8XY5"
  | .shiftRight => "8XY6"
  | .subtractFrom => "8XY7"
  | .shiftLeft => "8XYE"
  | .skipUnlessEqual => "9XY0"
  | .setIndex => "ANNN"
  | .jumpFrom => "BNNN"
  | .random => "CXNN"
  | .draw => "DXYN"
  | .skipIfPressed => "EX9E"
  | .skipUnlessPressed => "EXA1"
  | .readDelay => "FX07"
  | .awaitKey => "FX0A"
  | .setDelay => "FX15"
  | .setSound => "FX18"
  | .addIndex => "FX1E"
  | .pointToGlyph => "FX29"
  | .storeDecimal => "FX33"
  | .storeRegisters => "FX55"
  | .loadRegisters => "FX65"

/-- The operation on two registers with the given last digit. -/
def ofArithmetic? (n : Nibble) : Option Opcode :=
  match n.val with
  | 0x0 => some .copy
  | 0x1 => some .union
  | 0x2 => some .meet
  | 0x3 => some .difference
  | 0x4 => some .add
  | 0x5 => some .subtract
  | 0x6 => some .shiftRight
  | 0x7 => some .subtractFrom
  | 0xE => some .shiftLeft
  | _ => none

/-- The operation on timers, keys, the index register and memory with the given last digits. -/
def ofMiscellany? (y n : Nibble) : Option Opcode :=
  match y.val, n.val with
  | 0x0, 0x7 => some .readDelay
  | 0x0, 0xA => some .awaitKey
  | 0x1, 0x5 => some .setDelay
  | 0x1, 0x8 => some .setSound
  | 0x1, 0xE => some .addIndex
  | 0x2, 0x9 => some .pointToGlyph
  | 0x3, 0x3 => some .storeDecimal
  | 0x5, 0x5 => some .storeRegisters
  | 0x6, 0x5 => some .loadRegisters
  | _, _ => none

/-- The operation that a word stands for, if any. -/
def decode (w : Word) : Option Opcode :=
  match w.family.val with
  | 0x0 =>
    match w.x.val, w.y.val, w.n.val with
    | 0x0, 0xE, 0x0 => some .clearScreen
    | 0x0, 0xE, 0xE => some .ret
    | _, _, _ => none
  | 0x1 => some .jump
  | 0x2 => some .call
  | 0x3 => some .skipIfByte
  | 0x4 => some .skipUnlessByte
  | 0x5 => if w.n.val = 0 then some .skipIfEqual else none
  | 0x6 => some .setByte
  | 0x7 => some .addByte
  | 0x8 => ofArithmetic? w.n
  | 0x9 => if w.n.val = 0 then some .skipUnlessEqual else none
  | 0xA => some .setIndex
  | 0xB => some .jumpFrom
  | 0xC => some .random
  | 0xD => some .draw
  | 0xE =>
    match w.y.val, w.n.val with
    | 0x9, 0xE => some .skipIfPressed
    | 0xA, 0x1 => some .skipUnlessPressed
    | _, _ => none
  | _ => ofMiscellany? w.y w.n

end Opcode

/-- A word together with its operation. -/
structure Instruction where
  op : Opcode
  word : Word
deriving DecidableEq, Repr

namespace Instruction

/-- The instruction that a word stands for, if any. -/
def ofWord? (w : Word) : Option Instruction := (Opcode.decode w).map fun op ↦ ⟨op, w⟩

end Instruction

end ChipEight
