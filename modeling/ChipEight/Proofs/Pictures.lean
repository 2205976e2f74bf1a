import ChipEight.Screen.Picture
import Mathlib.Logic.Function.Basic

/-!
# Pictures read back

A picture is written in steps, and each of them can be undone: a cell is one of two characters, a
row stands between two bars, the rows stand between two rules, and a line break is put between
lines.  A reader that undoes the steps one by one is an exact inverse of the writer.  It gives back
the width of an array and the state of each of its cells, also where cells look like the frame
around them, and it reads nothing but pictures.
-/

namespace ChipEight

open Function (IsPartialInv)

variable {α β : Type}

/-! ## Arrays -/

/-- Rows of cells, all of the same width. -/
@[ext]
structure Grid (α : Type) where
  width : Nat
  rows : List (List α)
  length_row : ∀ row ∈ rows, row.length = width
deriving DecidableEq

namespace Grid

/-- The number of rows. -/
def height (g : Grid α) : Nat := g.rows.length

/-- The cell in a given row and column; there is none outside of the array. -/
def cell? (g : Grid α) (row column : Nat) : Option α := g.rows[row]?.bind (·[column]?)

/-- The array of some rows, if they have the width. -/
def ofRows? (width : Nat) (rows : List (List α)) : Option (Grid α) :=
  if h : ∀ row ∈ rows, row.length = width then some ⟨width, rows, h⟩ else none

/-- The array with `f` of each cell in its place. -/
def map (f : α → β) (g : Grid α) : Grid β where
  width := g.width
  rows := g.rows.map (List.map f)
  length_row := by
    intro row hrow
    obtain ⟨before, hbefore, rfl⟩ := List.mem_map.1 hrow
    rw [List.length_map, g.length_row before hbefore]

/-- Which cells of an array of bytes are on: those that are not zero. -/
def states (g : Grid UInt8) : Grid Bool := g.map (· ≠ 0)

/-- The cell in a given row and column is there, and it is not zero. -/
def IsOn (g : Grid UInt8) (row column : Nat) : Prop := ∃ b, g.cell? row column = some b ∧ b ≠ 0

variable {g h : Grid α} {row column : Nat}

theorem ofRows?_eq_some_iff {width : Nat} {rows : List (List α)} :
    ofRows? width rows = some g ↔ width = g.width ∧ rows = g.rows := by
  rw [ofRows?, Option.dite_none_right_eq_some]
  constructor
  · rintro ⟨hrows, hg⟩
    cases hg
    exact ⟨rfl, rfl⟩
  · rintro ⟨rfl, rfl⟩
    exact ⟨g.length_row, rfl⟩

theorem exists_row (hrow : row < g.height) :
    ∃ cells, g.rows[row]? = some cells ∧ cells.length = g.width :=
  ⟨_, List.getElem?_eq_getElem hrow, g.length_row _ (List.getElem_mem hrow)⟩

theorem exists_cell (hrow : row < g.height) (hcolumn : column < g.width) :
    ∃ a, g.cell? row column = some a := by
  obtain ⟨cells, hcells, hlength⟩ := exists_row hrow
  rw [cell?, hcells]
  exact ⟨_, List.getElem?_eq_getElem (hlength ▸ hcolumn)⟩

theorem cell?_map (f : α → β) (g : Grid α) (row column : Nat) :
    (g.map f).cell? row column = (g.cell? row column).map f := by
  rw [cell?, cell?, map, List.getElem?_map]
  cases g.rows[row]? with
  | none => rfl
  | some cells => exact List.getElem?_map

/-- Arrays of the same size with the same cells are the same. -/
theorem ext_cell? (hwidth : g.width = h.width) (hheight : g.height = h.height)
    (hcell : ∀ row < g.height, ∀ column < g.width, g.cell? row column = h.cell? row column) :
    g = h := by
  refine Grid.ext hwidth (List.ext_getElem hheight fun row hg hh ↦ ?_)
  have hlength := g.length_row _ (List.getElem_mem hg)
  have hlength' := h.length_row _ (List.getElem_mem hh)
  refine List.ext_getElem (by rw [hlength, hlength', hwidth]) fun column hc hc' ↦ ?_
  have hsame := hcell row hg column (hlength ▸ hc)
  rw [cell?, cell?, List.getElem?_eq_getElem hg, List.getElem?_eq_getElem hh, Option.bind_some,
    Option.bind_some, List.getElem?_eq_getElem hc, List.getElem?_eq_getElem hc'] at hsame
  exact Option.some.inj hsame

theorem height_states (g : Grid UInt8) : g.states.height = g.height := List.length_map _

theorem isOn_iff {g : Grid UInt8} : g.IsOn row column ↔ g.states.cell? row column = some true := by
  rw [states, cell?_map, Option.map_eq_some_iff]
  simp only [decide_eq_true_eq]
  rfl

/-- The states of the cells are told by the size and by the cells that are on. -/
theorem states_eq_iff {g h : Grid UInt8} :
    g.states = h.states ↔
      g.width = h.width ∧ g.height = h.height ∧
        ∀ row column, g.IsOn row column ↔ h.IsOn row column := by
  constructor
  · intro hstates
    refine ⟨congrArg (·.width) hstates, ?_, fun row column ↦ ?_⟩
    · rw [← height_states, ← height_states, hstates]
    · rw [isOn_iff, isOn_iff, hstates]
  · rintro ⟨hwidth, hheight, hon⟩
    have hwidth' : g.states.width = h.states.width := hwidth
    have hheight' : g.states.height = h.states.height := by
      rwa [height_states, height_states]
    refine ext_cell? hwidth hheight' fun row hrow column hcolumn ↦ ?_
    obtain ⟨a, ha⟩ := exists_cell hrow hcolumn
    obtain ⟨b, hb⟩ := exists_cell (hheight' ▸ hrow) (hwidth' ▸ hcolumn)
    have hlit := hon row column
    rw [isOn_iff, isOn_iff, ha, hb, Option.some.injEq, Option.some.injEq,
      ← Bool.eq_iff_iff] at hlit
    rw [ha, hb, hlit]

/-- Every array of states is that of some bytes. -/
theorem exists_states_eq (s : Grid Bool) : ∃ g, states g = s := by
  let byte (lit : Bool) : UInt8 := if lit then 1 else 0
  have hbyte : (fun b : UInt8 ↦ decide (b ≠ 0)) ∘ byte = id := by
    funext lit
    cases lit <;> rfl
  have hheight : (s.map byte).states.height = s.height := by
    rw [height_states]
    exact List.length_map _
  refine ⟨s.map byte, ext_cell? rfl hheight fun row _ column _ ↦ ?_⟩
  rw [states, cell?_map, cell?_map, Option.map_map, hbyte, Option.map_id, id_eq]

end Grid

namespace Picture

/-! ## Writing and reading -/

/-- A list between two copies of `c`. -/
def frame (c : α) (l : List α) : List α := c :: (l ++ [c])

/-- What stands between two copies of `c`, if a list is of that kind. -/
def unframe? [DecidableEq α] (c : α) : List α → Option (List α)
  | [] => none
  | a :: l => if a = c ∧ l.getLast? = some c then some l.dropLast else none

/-- The character of a cell that is on or off. -/
def mark (on off : Char) (lit : Bool) : Char := if lit then on else off

/-- The state of the cell that is written as `c`. -/
def readMark? (on off c : Char) : Option Bool :=
  if c = on then some true else if c = off then some false else none

/-- The line of a row of cells. -/
def writeRow (on off : Char) (row : List Bool) : List Char := frame '|' (row.map (mark on off))

/-- The cells of a line between bars. -/
def readRow? (on off : Char) (line : List Char) : Option (List Bool) :=
  (unframe? '|' line).bind (·.mapM (readMark? on off))

/-- The line above and below the rows. -/
def dashes (width : Nat) : List Char := List.replicate (width + 2) '-'

/-- The lines of a picture, from the states of the cells. -/
def writeLines (on off : Char) (s : Grid Bool) : List (List Char) :=
  frame (dashes s.width) (s.rows.map (writeRow on off))

/-- The states of the cells, from the lines of a picture.  The width is that of the first line. -/
def readLines? (on off : Char) (lines : List (List Char)) : Option (Grid Bool) :=
  let width := (lines.headD []).length - 2
  ((unframe? (dashes width) lines).bind (·.mapM (readRow? on off))).bind (Grid.ofRows? width)

/-- The picture of an array of bytes with a single character for each cell. -/
def ofGrid (on off : Char) (g : Grid UInt8) : String :=
  render (.singleton on) (.singleton off) g.width g.rows

/-- The lines of a text, without the line breaks between them. -/
def linesOf (text : String) : List (List Char) := text.toList.splitOn '\n'

/-- The states of the cells of which a text is the picture. -/
def read? (on off : Char) (text : String) : Option (Grid Bool) := readLines? on off (linesOf text)

variable {on off : Char} {g h : Grid UInt8} {s : Grid Bool} {text : String}

theorem toList_eq_intercalate (text : String) : text.toList = ['\n'].intercalate (linesOf text) :=
  (List.intercalate_splitOn '\n').symm

theorem linesOf_injective : Function.Injective linesOf := by
  intro t u h
  rw [← String.toList_inj, toList_eq_intercalate t, toList_eq_intercalate u, h]

theorem isPartialInv_frame [DecidableEq α] (c : α) : IsPartialInv (frame c) (unframe? c) := by
  intro l framed
  cases framed with
  | nil => simp [unframe?, frame]
  | cons a rest =>
    rw [unframe?, Option.ite_none_right_eq_some, List.getLast?_eq_some_iff, frame]
    constructor
    · rintro ⟨⟨rfl, before, rfl⟩, hl⟩
      rw [List.dropLast_concat, Option.some.injEq] at hl
      rw [hl]
    · intro hframed
      obtain ⟨rfl, rfl⟩ := List.cons.inj hframed
      exact ⟨⟨rfl, l, rfl⟩, by rw [List.dropLast_concat]⟩

/-- What can be undone on each entry can be undone on a list. -/
theorem isPartialInv_map {f : α → β} {r : β → Option α} (h : IsPartialInv f r) :
    IsPartialInv (List.map f) (List.mapM r) := by
  intro l written
  induction written generalizing l with
  | nil =>
    rw [List.mapM_nil, List.map_eq_nil_iff]
    exact ⟨fun hl ↦ (Option.some.inj hl).symm, fun hl ↦ congrArg some hl.symm⟩
  | cons b bs ih =>
    rw [List.mapM_cons]
    simp only [Option.bind_eq_bind, Option.bind_eq_some_iff, Option.pure_def, Option.some.injEq]
    constructor
    · rintro ⟨a, ha, as, has, rfl⟩
      rw [List.map_cons, (h a b).1 ha, (ih as).1 has]
    · intro hl
      obtain ⟨a, as, rfl, ha, has⟩ := List.map_eq_cons_iff.1 hl
      exact ⟨a, (h a b).2 ha, as, (ih as).2 has, rfl⟩

/-- Different marks tell whether a cell is on. -/
theorem isPartialInv_mark (hne : on ≠ off) : IsPartialInv (mark on off) (readMark? on off) := by
  intro lit c
  rw [readMark?]
  cases lit <;> grind [mark]

theorem isPartialInv_writeRow (hne : on ≠ off) :
    IsPartialInv (writeRow on off) (readRow? on off) :=
  (isPartialInv_map (isPartialInv_mark hne)).comp (isPartialInv_frame '|')

theorem isPartialInv_writeLines (hne : on ≠ off) :
    IsPartialInv (writeLines on off) (readLines? on off) := by
  have hrows : IsPartialInv _ _ := isPartialInv_map (isPartialInv_writeRow hne)
  intro s lines
  simp only [readLines?, Option.bind_eq_some_iff, isPartialInv_frame _ _ _, hrows _ _,
    Grid.ofRows?_eq_some_iff]
  constructor
  · rintro ⟨rows, ⟨inner, hlines, rfl⟩, hwidth, rfl⟩
    rw [writeLines, ← hwidth, hlines]
  · rintro rfl
    have hwidth : ((writeLines on off s).headD []).length - 2 = s.width := by
      rw [writeLines, frame, List.headD_cons, dashes, List.length_replicate, Nat.add_sub_cancel]
    rw [hwidth]
    exact ⟨s.rows, ⟨_, rfl, rfl⟩, rfl, rfl⟩

/-! ## The lines of a picture -/

theorem mem_frame {c a : α} {l : List α} : a ∈ frame c l ↔ a = c ∨ a ∈ l := by
  rw [frame, List.mem_cons, List.mem_append, List.mem_singleton, or_comm (a := a ∈ l), or_self_left]

theorem length_frame (c : α) (l : List α) : (frame c l).length = l.length + 2 := by
  rw [frame, List.length_cons, List.length_append, List.length_singleton]

theorem head?_frame (c : α) (l : List α) : (frame c l).head? = some c := rfl

theorem getLast?_frame (c : α) (l : List α) : (frame c l).getLast? = some c := by
  rw [frame, ← List.cons_append, List.getLast?_concat]

theorem getElem?_frame_succ {c : α} {l : List α} {i : Nat} (h : i < l.length) :
    (frame c l)[i + 1]? = l[i]? := by
  rw [frame, List.getElem?_cons_succ, List.getElem?_append_left h]

theorem length_writeRow (row : List Bool) : (writeRow on off row).length = row.length + 2 := by
  rw [writeRow, length_frame, List.length_map]

theorem length_of_mem_writeLines {line : List Char} (h : line ∈ writeLines on off s) :
    line.length = s.width + 2 := by
  obtain rfl | hline := mem_frame.1 h
  · exact List.length_replicate
  · obtain ⟨row, hrow, rfl⟩ := List.mem_map.1 hline
    rw [length_writeRow, s.length_row row hrow]

/-- A line break is none of the characters of a picture, unless it is a mark. -/
theorem newline_notMem_of_mem_writeLines (hon : on ≠ '\n') (hoff : off ≠ '\n') {line : List Char}
    (h : line ∈ writeLines on off s) : '\n' ∉ line := by
  intro hbreak
  obtain rfl | hline := mem_frame.1 h
  · exact absurd (List.eq_of_mem_replicate hbreak) (by decide)
  · obtain ⟨row, -, rfl⟩ := List.mem_map.1 hline
    obtain hbar | hmark := mem_frame.1 hbreak
    · exact absurd hbar (by decide)
    · obtain ⟨lit, -, hlit⟩ := List.mem_map.1 hmark
      cases lit with
      | true => exact hon hlit
      | false => exact hoff hlit

theorem toList_line (row : Bytes) :
    (line (.singleton on) (.singleton off) row).toList =
      writeRow on off (row.map fun b ↦ decide (b ≠ 0)) := by
  have hmark (b : UInt8) :
      (if b = 0 then String.singleton off else .singleton on).toList =
        [mark on off (decide (b ≠ 0))] := by
    by_cases hb : b = 0
    · rw [if_pos hb, String.toList_singleton, hb]
      rfl
    · rw [if_neg hb, String.toList_singleton, decide_eq_true hb]
      rfl
  rw [line, String.toList_append, String.toList_append, String.toList_join, List.flatMap_map]
  simp only [hmark]
  rw [← List.map_eq_flatMap, writeRow, List.map_map]
  rfl

theorem toList_ofGrid (on off : Char) (g : Grid UInt8) :
    (ofGrid on off g).toList = ['\n'].intercalate (writeLines on off g.states) := by
  have hlines : (lines (.singleton on) (.singleton off) g.width g.rows).map String.toList =
      writeLines on off g.states := by
    have hrule (width : Nat) : (rule width).toList = dashes width := String.toList_ofList
    have hrow : String.toList ∘ line (.singleton on) (.singleton off) =
        writeRow on off ∘ List.map fun b ↦ decide (b ≠ 0) := funext toList_line
    rw [lines, List.map_cons, List.map_append, List.map_map, hrow, ← List.map_map,
      List.map_singleton, hrule]
    rfl
  rw [ofGrid, render, String.toList_intercalate, hlines]
  rfl

/-- The lines are found between the line breaks. -/
theorem linesOf_ofGrid (hon : on ≠ '\n') (hoff : off ≠ '\n') (g : Grid UInt8) :
    linesOf (ofGrid on off g) = writeLines on off g.states := by
  rw [linesOf, toList_ofGrid]
  refine List.splitOn_intercalate _ (fun line ↦ newline_notMem_of_mem_writeLines hon hoff) ?_
  exact List.cons_ne_nil _ _

/-- A text is read exactly if it is the picture of an array, as the states of the cells of that. -/
theorem read?_eq_some_iff (hne : on ≠ off) (hon : on ≠ '\n') (hoff : off ≠ '\n') :
    read? on off text = some s ↔ ∃ g : Grid UInt8, g.states = s ∧ text = ofGrid on off g := by
  rw [read?, isPartialInv_writeLines hne]
  constructor
  · intro hlines
    obtain ⟨g, rfl⟩ := Grid.exists_states_eq s
    refine ⟨g, rfl, linesOf_injective ?_⟩
    rw [linesOf_ofGrid hon hoff, hlines]
  · rintro ⟨g, rfl, rfl⟩
    rw [linesOf_ofGrid hon hoff]

/-! ## Places in a text -/

/-- The character in a given line and column. -/
def charAt? (lines : List (List Char)) (line column : Nat) : Option Char :=
  lines[line]?.bind (·[column]?)

/-- A text that consists of some lines, and how these show an array of bytes. -/
structure Depicts (on off : Char) (g : Grid UInt8) (text : String) (lines : List (List Char)) :
    Prop where
  /-- There is one line break between two lines, and none before or behind all of them. -/
  joined : text.toList = ['\n'].intercalate lines
  unbroken : ∀ line ∈ lines, '\n' ∉ line
  length_lines : lines.length = g.height + 2
  length_line : ∀ line ∈ lines, line.length = g.width + 2
  /-- The first and the last line are made up of dashes. -/
  rules : ∀ line, lines.head? = some line ∨ lines.getLast? = some line → ∀ c ∈ line, c = '-'
  /-- Every other line stands between bars. -/
  bars : ∀ row < g.height,
    charAt? lines (row + 1) 0 = some '|' ∧ charAt? lines (row + 1) (g.width + 1) = some '|'
  /-- Behind the bar in front, the characters tell which cells are on. -/
  cells : ∀ row < g.height, ∀ column < g.width,
    (charAt? lines (row + 1) (column + 1) = some on ↔ g.IsOn row column) ∧
      (charAt? lines (row + 1) (column + 1) = some off ↔ ¬ g.IsOn row column)

section Places

variable {row column : Nat} {states : List Bool}

theorem getElem?_writeLines (h : s.rows[row]? = some states) :
    (writeLines on off s)[row + 1]? = some (writeRow on off states) := by
  have hrow : row < (s.rows.map (writeRow on off)).length := by
    rw [List.length_map]
    exact (List.getElem?_eq_some_iff.1 h).1
  rw [writeLines, getElem?_frame_succ hrow, List.getElem?_map, h, Option.map_some]

theorem charAt?_bars (hrow : row < s.height) :
    charAt? (writeLines on off s) (row + 1) 0 = some '|' ∧
      charAt? (writeLines on off s) (row + 1) (s.width + 1) = some '|' := by
  obtain ⟨states, hstates, hwidth⟩ := Grid.exists_row hrow
  rw [charAt?, charAt?, getElem?_writeLines hstates, Option.bind_some, Option.bind_some]
  constructor
  · rw [writeRow, ← List.head?_eq_getElem?, head?_frame]
  · rw [← hwidth, ← getLast?_frame '|' (states.map (mark on off)), List.getLast?_eq_getElem?,
      length_frame, List.length_map]
    rfl

/-- The mark of a cell stands behind as many lines and characters as there are rows and columns
before the cell, and one more. -/
theorem charAt?_cell (on off : Char) (hrow : row < s.height) (hcolumn : column < s.width) :
    charAt? (writeLines on off s) (row + 1) (column + 1) =
      (s.cell? row column).map (mark on off) := by
  obtain ⟨states, hstates, hwidth⟩ := Grid.exists_row hrow
  have hlength : column < (states.map (mark on off)).length := by
    rwa [List.length_map, hwidth]
  rw [charAt?, getElem?_writeLines hstates, Option.bind_some, writeRow, getElem?_frame_succ hlength,
    List.getElem?_map, Grid.cell?, hstates, Option.bind_some]

end Places

theorem mark_eq_iff (hne : on ≠ off) {lit : Bool} :
    (mark on off lit = on ↔ lit = true) ∧ (mark on off lit = off ↔ ¬ lit = true) := by
  cases lit with
  | true => simpa [mark] using hne
  | false => simpa [mark] using hne.symm

theorem depicts_ofGrid (hne : on ≠ off) (hon : on ≠ '\n') (hoff : off ≠ '\n') (g : Grid UInt8) :
    Depicts on off g (ofGrid on off g) (linesOf (ofGrid on off g)) := by
  have hjoined := toList_ofGrid on off g
  rw [linesOf_ofGrid hon hoff]
  constructor
  case joined => exact hjoined
  case unbroken => exact fun line ↦ newline_notMem_of_mem_writeLines hon hoff
  case length_lines =>
    rw [writeLines, length_frame, List.length_map, ← g.height_states]
    rfl
  case length_line => exact fun line ↦ length_of_mem_writeLines
  case rules =>
    rw [writeLines, head?_frame, getLast?_frame]
    intro line hline c hc
    obtain rfl : dashes g.states.width = line := Option.some.inj (or_self_iff.1 hline)
    exact List.eq_of_mem_replicate hc
  case bars =>
    intro row hrow
    rw [← g.height_states] at hrow
    exact charAt?_bars hrow
  case cells =>
    intro row hrow column hcolumn
    rw [← g.height_states] at hrow
    obtain ⟨lit, hlit⟩ := Grid.exists_cell hrow (show column < g.states.width from hcolumn)
    have hmark := charAt?_cell on off hrow hcolumn
    rw [hlit, Option.map_some] at hmark
    rw [Grid.isOn_iff, hlit, hmark, Option.some.injEq, Option.some.injEq, Option.some.injEq]
    exact mark_eq_iff hne

/-- Arrays have the same picture exactly if the states of their cells are the same. -/
theorem ofGrid_eq_iff (hne : on ≠ off) (hon : on ≠ '\n') (hoff : off ≠ '\n') :
    ofGrid on off g = ofGrid on off h ↔ g.states = h.states := by
  rw [← linesOf_injective.eq_iff, linesOf_ofGrid hon hoff, linesOf_ofGrid hon hoff,
    (isPartialInv_writeLines hne).injective.eq_iff]

/-- A picture can be read back.  Whichever two characters stand for cells, as long as they differ
and are no line breaks, the picture of an array has a line for each row between two rules and in
each line a character for each cell between two bars, from which the state of every cell is read.
So two arrays of the same width have the same picture exactly if they have as many rows and the same
cells are on. -/
theorem pictures_read_back (on off : Char) (hne : on ≠ off) (hon : on ≠ '\n') (hoff : off ≠ '\n')
    (g : Grid UInt8) :
    Depicts on off g (ofGrid on off g) (linesOf (ofGrid on off g)) ∧
      read? on off (ofGrid on off g) = some g.states ∧
      ∀ h : Grid UInt8, g.width = h.width →
        (ofGrid on off g = ofGrid on off h ↔
          g.height = h.height ∧ ∀ row column, g.IsOn row column ↔ h.IsOn row column) := by
  refine ⟨depicts_ofGrid hne hon hoff g, ?_, fun h hwidth ↦ ?_⟩
  · exact (read?_eq_some_iff hne hon hoff).2 ⟨g, rfl, rfl⟩
  · rw [ofGrid_eq_iff hne hon hoff, Grid.states_eq_iff, and_iff_right hwidth]

/-- Cells that look like the frame around them are read as well as others. -/
theorem bars_and_dashes_read_back :
    let g : Grid UInt8 := ⟨3, [[0, 7, 0], [0, 0, 255]], by decide⟩
    let h : Grid UInt8 := ⟨3, [[0, 1, 0], [0, 0, 1]], by decide⟩
    render "|" "-" 3 g.rows = "-----\n|-|-|\n|--||\n-----" ∧
      read? '|' '-' "-----\n|-|-|\n|--||\n-----" =
        some ⟨3, [[false, true, false], [false, false, true]], by decide⟩ ∧
      render "|" "-" 3 g.rows = render "|" "-" 3 h.rows := by
  intro g h
  obtain ⟨-, hread, hsame⟩ :=
    pictures_read_back '|' '-' (by decide) (by decide) (by decide) g
  have htext : render "|" "-" 3 g.rows = "-----\n|-|-|\n|--||\n-----" := by decide +kernel
  refine ⟨htext, ?_, ?_⟩
  · rw [← htext]
    exact hread
  · have hstates : g.states = h.states := by decide
    exact (hsame h rfl).2 (Grid.states_eq_iff.1 hstates).2

end Picture

end ChipEight
