import ChipEight.Action

/-!
# The screen

Thirty-two rows of sixty-four pixels. A row is a word of 64 bits, its leftmost pixel the most
significant one, so a sprite is drawn by an exclusive or and pixels that are hit show in a
conjunction.
-/

namespace ChipEight

/-- Which pixels are lit. -/
structure Screen where
  rows : Vector (BitVec screenWidth) screenHeight
deriving DecidableEq

namespace Screen

/-- Every pixel is dark. -/
def dark : Screen := ⟨Vector.replicate screenHeight 0⟩

/-- Whether the pixel in column `x` of row `y` is lit; none is outside of the screen. -/
def isLit (s : Screen) (x y : Nat) : Bool := (s.rows[y]?.getD 0).getMsbD x

/-- The pixel in column `x` of row `y`. The index of one outside is its place in reading order. -/
def pixel (x y : Int) : Action Screen Bool := do
  Action.require (0 ≤ x ∧ x < screenWidth ∧ 0 ≤ y ∧ y < screenHeight)
    (.ofCause (.outOfBounds .pixel (y * screenWidth + x)))
  Action.gets (·.isLit x.toNat y.toNat)

/-- The pixels of each row from left to right, the rows from top to bottom. -/
def cells (s : Screen) : List (List Bool) :=
  s.rows.toList.map fun row ↦ (List.range screenWidth).map row.getMsbD

/-- The number of pixels that are lit. -/
def litCount (s : Screen) : Nat := s.cells.flatten.count true

/-- The screen has as many cells as its measures say. -/
theorem length_flatten_cells (s : Screen) :
    s.cells.flatten.length = screenHeight * screenWidth := by
  have hrow : List.length ∘ (fun row : BitVec screenWidth ↦
      (List.range screenWidth).map row.getMsbD) = fun _ ↦ screenWidth := by
    funext row
    simp
  rw [List.length_flatten, cells, List.map_map, hrow, List.map_const', List.sum_replicate_nat,
    Vector.length_toList]

/-- Inverts the pixels of `s` that are lit in `mask`. -/
def invert (s mask : Screen) : Screen := ⟨Vector.zipWith (· ^^^ ·) s.rows mask.rows⟩

/-- Some pixel is lit in both. -/
def meets (s mask : Screen) : Bool :=
  (Vector.zipWith (· &&& ·) s.rows mask.rows).any (· ≠ 0)

@[simp] theorem isLit_dark (x y : Nat) : dark.isLit x y = false := by
  simp only [isLit, dark, Vector.getElem?_replicate]
  split <;> simp

/-- Nothing is lit outside of the screen. -/
theorem isLit_eq_false (s : Screen) {x y : Nat} (h : screenWidth ≤ x ∨ screenHeight ≤ y) :
    s.isLit x y = false := by
  rcases h with h | h
  · exact BitVec.getMsbD_of_ge _ _ h
  · simp [isLit, Vector.getElem?_eq_none h]

/-- What is lit lies on the screen. -/
theorem lt_of_isLit {s : Screen} {x y : Nat} (h : s.isLit x y = true) :
    x < screenWidth ∧ y < screenHeight := by
  refine Classical.byContradiction fun hout ↦ ?_
  rw [s.isLit_eq_false (by omega)] at h
  cases h

/-- Screens with the same pixels are the same. -/
@[ext] theorem ext_isLit {s t : Screen} (h : ∀ x y, s.isLit x y = t.isLit x y) : s = t := by
  obtain ⟨s⟩ := s
  obtain ⟨t⟩ := t
  congr 1
  refine Vector.ext fun y hy ↦ BitVec.eq_of_getMsbD_eq fun x _ ↦ ?_
  simpa [isLit, Vector.getElem?_eq_getElem hy] using h x y

/-- A pixel is lit after inversion if it was lit or inverted, but not both. -/
@[simp] theorem isLit_invert (s mask : Screen) (x y : Nat) :
    (s.invert mask).isLit x y = (s.isLit x y ^^ mask.isLit x y) := by
  simp only [isLit, invert, Vector.getElem?_zipWith]
  by_cases h : y < screenHeight
  · simp [Vector.getElem?_eq_getElem h]
  · simp [Vector.getElem?_eq_none (Nat.le_of_not_lt h)]

/-- Two screens meet in a pixel that is lit in both. -/
theorem meets_iff (s mask : Screen) :
    s.meets mask ↔ ∃ x y, s.isLit x y ∧ mask.isLit x y := by
  simp only [meets, Vector.any_eq_true, isLit]
  constructor
  · rintro ⟨y, hy, h⟩
    simp only [Vector.getElem_zipWith, ne_eq, decide_eq_true_eq] at h
    refine Classical.byContradiction fun hn ↦ ?_
    refine h (BitVec.eq_of_getMsbD_eq fun x _ ↦ ?_)
    simp only [not_exists, not_and] at hn
    have := hn x y
    simp only [Vector.getElem?_eq_getElem hy, Option.getD_some] at this
    simp only [BitVec.getMsbD_and]
    cases hs : s.rows[y].getMsbD x <;> simp_all
  · rintro ⟨x, y, hs, hm⟩
    by_cases hy : y < screenHeight
    · refine ⟨y, hy, ?_⟩
      simp only [Vector.getElem?_eq_getElem hy, Option.getD_some] at hs hm
      simp only [Vector.getElem_zipWith, ne_eq, decide_eq_true_eq]
      intro h
      have := congrArg (·.getMsbD x) h
      simp [hs, hm] at this
    · simp [Vector.getElem?_eq_none (Nat.le_of_not_lt hy)] at hs

theorem pixel_of_inside (s : Screen) {x y : Int}
    (h : 0 ≤ x ∧ x < screenWidth ∧ 0 ≤ y ∧ y < screenHeight) :
    pixel x y s = ⟨s, .ok (s.isLit x.toNat y.toNat), []⟩ := by
  rw [pixel, Action.require_bind_of_pos h]
  rfl

theorem pixel_of_outside (s : Screen) {x y : Int}
    (h : ¬ (0 ≤ x ∧ x < screenWidth ∧ 0 ≤ y ∧ y < screenHeight)) :
    pixel x y s = ⟨s, .error (.ofCause (.outOfBounds .pixel (y * screenWidth + x))), []⟩ :=
  Action.require_bind_of_neg h _ _ s

end Screen

end ChipEight
