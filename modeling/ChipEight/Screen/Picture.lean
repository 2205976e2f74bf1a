import ChipEight.Screen

/-!
# Pictures in text

A grid of cells is written between two rules of dashes, each row between two bars, one text for
cells that are on and one for those that are off.
-/

namespace ChipEight

namespace Picture

/-- The line above and below a picture of the given width. -/
def rule (width : Nat) : String := String.ofList (List.replicate (width + 2) '-')

/-- The line of one row of cells. -/
def line (on off : String) (row : Bytes) : String :=
  "|" ++ String.join (row.map fun cell ↦ if cell = 0 then off else on) ++ "|"

/-- The lines of a picture, rules included. -/
def lines (on off : String) (width : Nat) (rows : List Bytes) : List String :=
  rule width :: (rows.map (line on off) ++ [rule width])

/-- A picture as one text, with a line break between lines. -/
def render (on off : String) (width : Nat) (rows : List Bytes) : String :=
  "\n".intercalate (lines on off width rows)

/-- The text for cells that are on when none is asked for. -/
def defaultOn : String := "X"

/-- The text for cells that are off when none is asked for. -/
def defaultOff : String := " "

end Picture

/-- The pixels of each row as bytes, one for a lit pixel and zero for a dark one. -/
def Screen.bytes (s : Screen) : List Bytes :=
  s.cells.map fun row ↦ row.map fun lit ↦ if lit then 1 else 0

/-- The screen as text. -/
def Screen.render (s : Screen) (on off : String) : String :=
  Picture.render on off screenWidth s.bytes

end ChipEight
