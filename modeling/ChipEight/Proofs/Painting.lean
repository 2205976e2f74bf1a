import ChipEight.Desktop.Window
import Mathlib.Algebra.BigOperators.Group.Finset.Basic
import Mathlib.Data.List.ProdSigma
import Mathlib.Order.Interval.Finset.Nat

/-!
# Painting

A picture is painted by filling the window with black and then, for each pixel that is lit, its
square with white.  Whatever was there before, a point is white afterwards exactly if the pixel over
it is lit, and the white points are as many as the scale says.
-/

namespace ChipEight

variable {scale px py : Nat} {cell : Nat × Nat}

/-- A rectangle of points. -/
structure Rectangle where
  left : Nat
  top : Nat
  width : Nat
  height : Nat

namespace Rectangle

/-- The point in column `px` of row `py` belongs to the rectangle. -/
def Contains (r : Rectangle) (px py : Nat) : Prop :=
  (r.left ≤ px ∧ px < r.left + r.width) ∧ r.top ≤ py ∧ py < r.top + r.height

instance (r : Rectangle) (px py : Nat) : Decidable (r.Contains px py) :=
  inferInstanceAs (Decidable (_ ∧ _))

/-- The picture with a rectangle in one colour, white or not. -/
def fill (r : Rectangle) (white : Bool) (picture : Nat → Nat → Bool) (px py : Nat) : Bool :=
  if r.Contains px py then white else picture px py

/-- The whole window. -/
def window (scale : Nat) : Rectangle := ⟨0, 0, screenWidth * scale, screenHeight * scale⟩

theorem contains_window_iff :
    (window scale).Contains px py ↔ px < screenWidth * scale ∧ py < screenHeight * scale := by
  simp [window, Contains]

/-- The square over which the pixel in a given row and column extends. -/
def square (scale : Nat) (cell : Nat × Nat) : Rectangle :=
  ⟨cell.2 * scale, cell.1 * scale, scale, scale⟩

/-- A point belongs to the square of the pixel over it and to no other. -/
theorem contains_square_iff (hscale : 0 < scale) :
    (square scale cell).Contains px py ↔ cell = (py / scale, px / scale) := by
  obtain ⟨y, x⟩ := cell
  have hx : px / scale = x ↔ x * scale ≤ px ∧ px < x * scale + scale := by
    rw [Nat.div_eq_iff hscale]
    omega
  have hy : py / scale = y ↔ y * scale ≤ py ∧ py < y * scale + scale := by
    rw [Nat.div_eq_iff hscale]
    omega
  rw [Prod.mk.injEq, eq_comm, hy, eq_comm, hx, and_comm]
  rfl

end Rectangle

namespace Screen

/-- The rows and columns of all pixels, in reading order. -/
def places : List (Nat × Nat) := List.range screenHeight ×ˢ List.range screenWidth

/-- Rows and columns of the pixels that are lit, in reading order. -/
def litCells (s : Screen) : List (Nat × Nat) := places.filter fun cell ↦ s.isLit cell.2 cell.1

variable {s : Screen}

theorem mem_litCells : cell ∈ s.litCells ↔ s.isLit cell.2 cell.1 = true := by
  rw [litCells, List.mem_filter, and_iff_right_iff_imp]
  intro hlit
  obtain ⟨hx, hy⟩ := lt_of_isLit hlit
  exact List.mem_product.2 ⟨List.mem_range.2 hy, List.mem_range.2 hx⟩

theorem nodup_litCells (s : Screen) : s.litCells.Nodup :=
  (List.nodup_range.product List.nodup_range).filter _

/-- The pixels one by one in reading order. -/
theorem flatten_cells (s : Screen) :
    s.cells.flatten = places.map fun cell ↦ s.isLit cell.2 cell.1 := by
  have hrows : s.rows.toList = (List.range screenHeight).map fun y ↦ s.rows[y]?.getD 0 := by
    refine List.ext_getElem (by simp) fun y hy _ ↦ ?_
    rw [Vector.length_toList] at hy
    simp [Vector.getElem?_eq_getElem hy]
  rw [cells, hrows, List.map_map, places, ← List.flatMap_def]
  simp only [SProd.sprod, List.product, List.map_flatMap, List.map_map]
  rfl

theorem length_litCells (s : Screen) : s.litCells.length = s.litCount := by
  rw [litCount, flatten_cells, List.count, List.countP_map, litCells, List.countP_eq_length_filter]
  refine congrArg (fun p ↦ (places.filter p).length) (funext fun cell ↦ ?_)
  exact (beq_true _).symm

/-- The picture of a screen, painted over another one. -/
def painted (s : Screen) (scale : Nat) (before : Nat → Nat → Bool) : Nat → Nat → Bool :=
  s.litCells.foldl (fun picture cell ↦ (Rectangle.square scale cell).fill true picture)
    ((Rectangle.window scale).fill false before)

/-- Squares that are filled with white are white, and all else keeps its colour. -/
theorem foldl_fill_square (hscale : 0 < scale) (cells : List (Nat × Nat))
    (picture : Nat → Nat → Bool) :
    cells.foldl (fun picture cell ↦ (Rectangle.square scale cell).fill true picture) picture px py =
      (decide ((py / scale, px / scale) ∈ cells) || picture px py) := by
  induction cells generalizing picture with
  | nil => simp
  | cons cell cells ih =>
    rw [List.foldl_cons, ih, Rectangle.fill]
    by_cases hcell : cell = (py / scale, px / scale)
    · rw [if_pos ((Rectangle.contains_square_iff hscale).2 hcell), hcell]
      simp
    · rw [if_neg (mt (Rectangle.contains_square_iff hscale).1 hcell)]
      simp [Ne.symm hcell]

/-- A point of a picture is white exactly if the pixel over it is lit, whatever was there before. -/
theorem painted_eq_isLit (s : Screen) (before : Nat → Nat → Bool)
    (hx : px < screenWidth * scale) (hy : py < screenHeight * scale) :
    s.painted scale before px py = s.isLit (px / scale) (py / scale) := by
  have hscale : 0 < scale := Nat.pos_of_lt_mul_left hx
  rw [painted, foldl_fill_square hscale, Rectangle.fill,
    if_pos (Rectangle.contains_window_iff.2 ⟨hx, hy⟩), Bool.or_false]
  rw [Bool.eq_iff_iff, decide_eq_true_iff, mem_litCells]

end Screen

namespace Window

variable {w : Window}

/-- Row and column of the pixel over a point. -/
def cellOver (w : Window) (point : Nat × Nat) : Nat × Nat := (point.2 / w.scale, point.1 / w.scale)

/-- The points of the window that are white. -/
def whitePoints (w : Window) : Finset (Nat × Nat) :=
  (Finset.range w.size.1 ×ˢ Finset.range w.size.2).filter fun point ↦ w.isWhite point.1 point.2

theorem mem_whitePoints {point : Nat × Nat} :
    point ∈ w.whitePoints ↔
      (point.1 < screenWidth * w.scale ∧ point.2 < screenHeight * w.scale) ∧
        w.surface.isLit (w.cellOver point).2 (w.cellOver point).1 = true := by
  rw [whitePoints, Finset.mem_filter, Finset.mem_product, Finset.mem_range, Finset.mem_range]
  rfl

/-- All points of the square of a pixel that is lit are white. -/
theorem card_whitePoints_of_isLit (hscale : 0 < w.scale)
    (hlit : w.surface.isLit cell.2 cell.1 = true) :
    (w.whitePoints.filter fun point ↦ w.cellOver point = cell).card = w.scale * w.scale := by
  obtain ⟨y, x⟩ := cell
  have hpoints : (w.whitePoints.filter fun point ↦ w.cellOver point = (y, x)) =
      Finset.Ico (x * w.scale) (x * w.scale + w.scale) ×ˢ
        Finset.Ico (y * w.scale) (y * w.scale + w.scale) := by
    ext ⟨px, py⟩
    have hsquare : (Rectangle.square w.scale (y, x)).Contains px py ↔
        (y, x) = (py / w.scale, px / w.scale) := Rectangle.contains_square_iff hscale
    rw [Finset.mem_filter, mem_whitePoints, Finset.mem_product, Finset.mem_Ico, Finset.mem_Ico]
    constructor
    · rintro ⟨-, hover⟩
      exact hsquare.2 hover.symm
    · intro hpoint
      obtain ⟨rfl, rfl⟩ := Prod.mk.inj (hsquare.1 hpoint)
      obtain ⟨hx, hy⟩ := Screen.lt_of_isLit hlit
      refine ⟨⟨⟨?_, ?_⟩, hlit⟩, rfl⟩
      · exact (Nat.div_lt_iff_lt_mul hscale).1 hx
      · exact (Nat.div_lt_iff_lt_mul hscale).1 hy
  rw [hpoints, Finset.card_product, Nat.card_Ico, Nat.card_Ico, Nat.add_sub_cancel_left,
    Nat.add_sub_cancel_left]

/-- The white points of the square of a pixel: all of them or none. -/
theorem card_whitePoints_over (hscale : 0 < w.scale) (cell : Nat × Nat) :
    (w.whitePoints.filter fun point ↦ w.cellOver point = cell).card =
      if w.surface.isLit cell.2 cell.1 then w.scale * w.scale else 0 := by
  split
  case isTrue hlit => exact card_whitePoints_of_isLit hscale hlit
  case isFalse hdark =>
    rw [Finset.card_eq_zero, Finset.filter_eq_empty_iff]
    rintro point hpoint rfl
    exact hdark (mem_whitePoints.1 hpoint).2

/-- The white points are as many as are counted. -/
theorem card_whitePoints (hscale : 0 < w.scale) : w.whitePoints.card = w.whiteCount := by
  have hover : ∀ point ∈ w.whitePoints, w.cellOver point ∈ w.surface.litCells.toFinset :=
    fun point hpoint ↦ List.mem_toFinset.2 (Screen.mem_litCells.2 (mem_whitePoints.1 hpoint).2)
  have hsquare : ∀ cell ∈ w.surface.litCells.toFinset,
      (w.whitePoints.filter fun point ↦ w.cellOver point = cell).card = w.scale * w.scale :=
    fun cell hcell ↦
      card_whitePoints_of_isLit hscale (Screen.mem_litCells.1 (List.mem_toFinset.1 hcell))
  rw [Finset.card_eq_sum_card_fiberwise hover, Finset.sum_const_nat hsquare,
    List.toFinset_card_of_nodup (Screen.nodup_litCells _), Screen.length_litCells]
  rfl

end Window

end ChipEight
