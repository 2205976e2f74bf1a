import ChipEight.Layout

/-!
# The keyboard

Sixteen keys of a keyboard stand for those of the keypad, in a block of four rows of four:

| keypad | keyboard |
|---|---|
| `1 2 3 C` | `1 2 3 4` |
| `4 5 6 D` | `Q W E R` |
| `7 8 9 E` | `A S D F` |
| `A 0 B F` | `Z X C V` |
-/

namespace ChipEight

/-- A key of the keyboard, called by the name on it in lower case. -/
structure KeyboardKey where
  name : String
deriving DecidableEq, Repr

namespace KeyboardKey

/-- Closes the window. -/
def escape : KeyboardKey := ⟨"escape"⟩

/-- Inserts the current program again. -/
def reinsert : KeyboardKey := ⟨"f9"⟩

/-- The keys that stand for those of the keypad, in the order of the latter's numbers. -/
def layout : List KeyboardKey :=
  [⟨"x"⟩, ⟨"1"⟩, ⟨"2"⟩, ⟨"3"⟩, ⟨"q"⟩, ⟨"w"⟩, ⟨"e"⟩, ⟨"a"⟩,
   ⟨"s"⟩, ⟨"d"⟩, ⟨"z"⟩, ⟨"c"⟩, ⟨"4"⟩, ⟨"r"⟩, ⟨"f"⟩, ⟨"v"⟩]

@[simp] theorem length_layout : layout.length = keyCount := rfl

/-- The key of the keypad that a key stands for, if any. -/
def keypadKey? (k : KeyboardKey) : Option Nat := layout.idxOf? k

end KeyboardKey

end ChipEight
