import ChipEight.Screen

/-!
# Sprites

A sprite is a list of bytes, one for each of its rows of eight pixels. Its origin wraps around the
screen; what sticks out on the right or at the bottom is cut off.
-/

namespace ChipEight

namespace Screen

/-- A row in which the bits of `byte` begin in column `x`. -/
def spriteRow (byte : UInt8) (x : Nat) : BitVec screenWidth :=
  ((byte.toBitVec.setWidth screenWidth) <<< (screenWidth - spriteWidth)) >>> x

/-- The pixels of a sprite whose origin is the column `x` of row `y`. -/
def ofSprite (sprite : Bytes) (x y : Nat) : Screen :=
  ⟨Vector.ofFn fun row ↦
    if row.val < y then 0
    else match sprite[row.val - y]? with
      | some byte => spriteRow byte x
      | none => 0⟩

/-- The screen on which a sprite with an origin anywhere has been drawn, and whether a pixel that
was lit has been turned off. -/
def draw (s : Screen) (sprite : Bytes) (x y : Int) : Screen × Bool :=
  let mask := ofSprite sprite (x % screenWidth).toNat (y % screenHeight).toNat
  (s.invert mask, s.meets mask)

/-- Draws a sprite; tells whether a pixel that was lit has been turned off. -/
def blit (sprite : Bytes) (x y : Int) : Action Screen Bool := fun s ↦
  let (drawn, collision) := s.draw sprite x y
  ⟨drawn, .ok collision, []⟩

/-- A pixel of a sprite's row is lit if it lies under the sprite and the bit of its column is set,
the bits of a byte being counted from the left. -/
theorem getMsbD_spriteRow (byte : UInt8) (x px : Nat) :
    (spriteRow byte x).getMsbD px =
      (decide (x ≤ px ∧ px < screenWidth ∧ px < x + spriteWidth) &&
        byte.toBitVec.getMsbD (px - x)) := by
  simp only [spriteRow, BitVec.getMsbD_ushiftRight, BitVec.getMsbD_shiftLeft,
    BitVec.getMsbD_setWidth]
  rcases Nat.lt_or_ge px x with h | h
  · simp [h, Nat.not_le.2 h]
  · rcases Nat.lt_or_ge px screenWidth with hw | hw
    · have hbit : px - x + (screenWidth - spriteWidth) + 8 - screenWidth = px - x := by
        simp only [screenWidth, spriteWidth]; omega
      have hdeep : screenWidth - 8 ≤ px - x + (screenWidth - spriteWidth) := by
        simp only [screenWidth, spriteWidth]; omega
      rw [hbit]
      by_cases hs : px < x + spriteWidth
      · simp [h, hw, hs, hdeep, Nat.not_lt.2 h]
      · have hnone : byte.toBitVec.getMsbD (px - x) = false :=
          BitVec.getMsbD_of_ge _ _ (by simp only [spriteWidth] at hs; omega)
        simp [hnone]
    · simp [Nat.not_lt.2 hw]

/-- A pixel belongs to the sprite if the bit of its row and column is set. -/
theorem isLit_ofSprite (sprite : Bytes) (x y px py : Nat) :
    (ofSprite sprite x y).isLit px py =
      (decide (y ≤ py ∧ py < screenHeight) &&
        ((sprite[py - y]?.map fun byte ↦ (spriteRow byte x).getMsbD px).getD false)) := by
  by_cases h : py < screenHeight
  · by_cases hy : py < y
    · simp [isLit, ofSprite, h, hy, Nat.not_le.2 hy]
    · cases hb : sprite[py - y]? <;> simp [isLit, ofSprite, h, hy, Nat.le_of_not_lt hy, hb]
  · simp [isLit, ofSprite, h]

end Screen

end ChipEight
