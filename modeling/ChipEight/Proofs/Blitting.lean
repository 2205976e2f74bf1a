import ChipEight.Proofs.Halting
import ChipEight.Proofs.View

/-!
# Drawing pixel by pixel

A sprite is drawn by an exclusive or of whole rows.  The plain way is to go through the bits of the
sprite, to invert the pixel under each that is set, and to stop at the edges of the screen; both
lead to the same screen and find the same collisions.  So the law of a single pixel holds wherever
the origin is and whatever is cut off.
-/

namespace ChipEight

namespace Screen

variable {s t u : Screen × Bool} {mask mask' : Nat → Nat → Bool}

/-! ## Going through the bits -/

/-- Inverts the pixel in column `x` of row `y`. -/
def flip (screen : Screen) (x y : Nat) : Screen :=
  ⟨screen.rows.mapIdx fun row pixels ↦
    if row = y then pixels ^^^ BitVec.twoPow screenWidth (screenWidth - 1 - x) else pixels⟩

/-- Inverts a pixel and keeps in mind whether it was lit. -/
def touch (x y : Nat) (s : Screen × Bool) : Screen × Bool :=
  (s.1.flip x y, s.2 || s.1.isLit x y)

/-- Touches a pixel of row `y` for each bit that is set, from column `x` on to the right, and stops
at the edge of the screen. -/
def scanRow (y : Nat) : List Bool → Nat → Screen × Bool → Screen × Bool
  | [], _, s => s
  | bit :: bits, x, s =>
    if screenWidth ≤ x then s
    else scanRow y bits (x + 1) (if bit then touch x y s else s)

/-- The bits of a byte, the most significant one first. -/
def bitsOf (byte : UInt8) : List Bool :=
  (List.range spriteWidth).map fun column ↦ byte.toNat.testBit (spriteWidth - 1 - column)

/-- Scans a row from column `x` on for each byte of a sprite, from row `y` on downwards, and stops
at the bottom of the screen. -/
def scan (x : Nat) : Bytes → Nat → Screen × Bool → Screen × Bool
  | [], _, s => s
  | byte :: sprite, y, s =>
    if screenHeight ≤ y then s
    else scan x sprite (y + 1) (scanRow y (bitsOf byte) x s)

/-! ## What has been inverted -/

/-- From one screen to another exactly the pixels of a mask have been inverted.  There is a
collision if there was one before or one of these pixels was lit. -/
structure Inverts (mask : Nat → Nat → Bool) (s t : Screen × Bool) : Prop where
  isLit : ∀ px py, t.1.isLit px py = (s.1.isLit px py ^^ mask px py)
  collision : t.2 = true ↔ s.2 = true ∨ ∃ px py, mask px py = true ∧ s.1.isLit px py = true

theorem isLit_flip (screen : Screen) {x y : Nat} (hx : x < screenWidth) (hy : y < screenHeight)
    (px py : Nat) :
    (screen.flip x y).isLit px py = (screen.isLit px py ^^ decide (px = x ∧ py = y)) := by
  have hplace : screenWidth - (screenWidth - 1 - x) - 1 = x := by omega
  have hbit : screenWidth - 1 - x < screenWidth := by omega
  simp only [isLit, flip, Vector.getElem?_mapIdx]
  by_cases hrow : py = y
  · subst hrow
    rw [Vector.getElem?_eq_getElem hy, Option.map_some, Option.getD_some, Option.getD_some,
      if_pos rfl, BitVec.getMsbD_xor, BitVec.getMsbD_twoPow, hplace, decide_eq_true hbit]
    simp
  · by_cases hp : py < screenHeight
    · simp [Vector.getElem?_eq_getElem hp, hrow]
    · simp [Vector.getElem?_eq_none (Nat.le_of_not_lt hp), hrow]

namespace Inverts

theorem refl (s : Screen × Bool) : Inverts (fun _ _ ↦ false) s s where
  isLit := by simp
  collision := by simp

/-- One step after another inverts the pixels of either, if no pixel is inverted twice. -/
theorem trans (h : Inverts mask s t) (h' : Inverts mask' t u)
    (apart : ∀ px py, mask px py = true → mask' px py = false) :
    Inverts (fun px py ↦ mask px py || mask' px py) s u where
  isLit px py := by
    rw [h'.isLit, h.isLit, Bool.xor_assoc]
    cases hm : mask px py with
    | true => rw [apart px py hm]; rfl
    | false => rw [Bool.false_xor, Bool.false_or]
  collision := by
    have untouched : ∀ px py, mask' px py = true → t.1.isLit px py = s.1.isLit px py := by
      intro px py hm'
      cases hm : mask px py with
      | true => simp [apart px py hm] at hm'
      | false => rw [h.isLit, hm, Bool.xor_false]
    rw [h'.collision, h.collision, or_assoc]
    refine or_congr_right ⟨?_, ?_⟩
    · rintro (⟨px, py, hm, hs⟩ | ⟨px, py, hm, hs⟩)
      · exact ⟨px, py, by rw [hm, Bool.true_or], hs⟩
      · exact ⟨px, py, by rw [hm, Bool.or_true], untouched px py hm ▸ hs⟩
    · rintro ⟨px, py, hm, hs⟩
      obtain hm | hm := Bool.or_eq_true_iff.1 hm
      · exact .inl ⟨px, py, hm, hs⟩
      · exact .inr ⟨px, py, hm, (untouched px py hm).trans hs⟩

theorem congr (h : Inverts mask s t) (heq : ∀ px py, mask' px py = mask px py) :
    Inverts mask' s t := by
  obtain rfl : mask' = mask := funext fun px ↦ funext fun py ↦ heq px py
  exact h

/-- A mask leaves no choice. -/
theorem unique (h : Inverts mask s t) (h' : Inverts mask s u) : t = u := by
  refine Prod.ext (ext_isLit fun px py ↦ ?_)
    (Bool.eq_iff_iff.2 (h.collision.trans h'.collision.symm))
  rw [h.isLit, h'.isLit]

theorem touch {x y : Nat} (hx : x < screenWidth) (hy : y < screenHeight) (s : Screen × Bool) :
    Inverts (fun px py ↦ decide (px = x ∧ py = y)) s (touch x y s) where
  isLit := isLit_flip s.1 hx hy
  collision := by
    simp only [Screen.touch, Bool.or_eq_true, decide_eq_true_eq]
    refine or_congr_right ⟨fun hs ↦ ⟨x, y, ⟨rfl, rfl⟩, hs⟩, ?_⟩
    rintro ⟨_, _, ⟨rfl, rfl⟩, hs⟩
    exact hs

end Inverts

/-- The pixels under the bits of a row that begins in column `x` of row `y`. -/
def rowMask (bits : List Bool) (x y px py : Nat) : Bool :=
  py == y && (decide (x ≤ px ∧ px < screenWidth) && bits[px - x]?.getD false)

/-- The pixels under the bits of a sprite whose origin is column `x` of row `y`. -/
def spriteMask (sprite : Bytes) (x y px py : Nat) : Bool :=
  decide (y ≤ py ∧ py < screenHeight) &&
    (sprite[py - y]?.elim false fun byte ↦ rowMask (bitsOf byte) x py px py)

/-- The first bit of a row, and the bits after it. -/
theorem rowMask_cons (bit : Bool) (bits : List Bool) {x : Nat} (hx : x < screenWidth)
    (y px py : Nat) :
    rowMask (bit :: bits) x y px py =
      (bit && decide (px = x ∧ py = y) || rowMask bits (x + 1) y px py) := by
  simp only [rowMask]
  obtain h | rfl | h := Nat.lt_trichotomy px x
  · have hne : px ≠ x := by omega
    have hle : ¬ x ≤ px := by omega
    have hle' : ¬ x + 1 ≤ px := by omega
    simp [hne, hle, hle']
  · have hle : ¬ px + 1 ≤ px := Nat.not_succ_le_self px
    by_cases hy : py = y
    · simp [hy, hx, hle]
    · simp [hy, hle]
  · have hne : px ≠ x := by omega
    have hle : x ≤ px := by omega
    have hsub : px - x = px - (x + 1) + 1 := by omega
    simp [hne, hle, Nat.succ_le_of_lt h, hsub]

/-- The pixels of a row that is scanned are inverted. -/
theorem inverts_scanRow {y : Nat} (hy : y < screenHeight) (bits : List Bool) (x : Nat)
    (s : Screen × Bool) : Inverts (rowMask bits x y) s (scanRow y bits x s) := by
  induction bits generalizing x s with
  | nil => exact (Inverts.refl s).congr fun px py ↦ by simp [rowMask]
  | cons bit bits ih =>
    rw [scanRow]
    split
    case isTrue hx =>
      refine (Inverts.refl s).congr fun px py ↦ ?_
      have : ¬ (x ≤ px ∧ px < screenWidth) := by omega
      simp [rowMask, this]
    case isFalse hx =>
      have hx : x < screenWidth := Nat.lt_of_not_le hx
      have first : Inverts (fun px py ↦ bit && decide (px = x ∧ py = y)) s
          (if bit then touch x y s else s) := by
        cases bit with
        | true => exact Inverts.touch hx hy s
        | false => exact Inverts.refl s
      refine (first.trans (ih (x + 1) _) fun px py hm ↦ ?_).congr (rowMask_cons bit bits hx y)
      have : ¬ (x + 1 ≤ px ∧ px < screenWidth) := by simp at hm; omega
      rw [rowMask, decide_eq_false this, Bool.false_and, Bool.and_false]

/-- The first row of a sprite, and the rows below it. -/
theorem spriteMask_cons (byte : UInt8) (sprite : Bytes) (x : Nat) {y : Nat} (hy : y < screenHeight)
    (px py : Nat) :
    spriteMask (byte :: sprite) x y px py =
      (rowMask (bitsOf byte) x y px py || spriteMask sprite x (y + 1) px py) := by
  simp only [spriteMask]
  obtain h | rfl | h := Nat.lt_trichotomy py y
  · have hne : py ≠ y := by omega
    have hle : ¬ y ≤ py := by omega
    have hle' : ¬ y + 1 ≤ py := by omega
    simp [rowMask, hne, hle, hle']
  · have hle : ¬ py + 1 ≤ py := Nat.not_succ_le_self py
    simp [hy, hle]
  · have hne : py ≠ y := by omega
    have hle : y ≤ py := by omega
    have hsub : py - y = py - (y + 1) + 1 := by omega
    simp [rowMask, hne, hle, Nat.succ_le_of_lt h, hsub]

/-- The pixels of a sprite that is scanned are inverted. -/
theorem inverts_scan (sprite : Bytes) (x y : Nat) (s : Screen × Bool) :
    Inverts (spriteMask sprite x y) s (scan x sprite y s) := by
  induction sprite generalizing y s with
  | nil => exact (Inverts.refl s).congr fun px py ↦ by simp [spriteMask]
  | cons byte sprite ih =>
    rw [scan]
    split
    case isTrue hy =>
      refine (Inverts.refl s).congr fun px py ↦ ?_
      have : ¬ (y ≤ py ∧ py < screenHeight) := by omega
      simp [spriteMask, this]
    case isFalse hy =>
      have hy : y < screenHeight := Nat.lt_of_not_le hy
      refine ((inverts_scanRow hy (bitsOf byte) x s).trans (ih (y + 1) _) fun px py hm ↦ ?_).congr
        (spriteMask_cons byte sprite x hy)
      have : ¬ (y + 1 ≤ py ∧ py < screenHeight) := by simp [rowMask] at hm; omega
      rw [spriteMask, decide_eq_false this, Bool.false_and]

/-- The bits of a byte from the left. -/
theorem getElem?_bitsOf (byte : UInt8) (k : Nat) :
    (bitsOf byte)[k]?.getD false = byte.toBitVec.getMsbD k := by
  by_cases hk : k < spriteWidth
  · rw [Machine.getMsbD_eq_testBit byte hk]
    simp [bitsOf, hk]
  · rw [BitVec.getMsbD_of_ge _ _ (Nat.le_of_not_lt hk)]
    simp [bitsOf, hk]

/-- The pixels of a sprite are those under its bits. -/
theorem isLit_ofSprite_eq_spriteMask (sprite : Bytes) (x y px py : Nat) :
    (ofSprite sprite x y).isLit px py = spriteMask sprite x y px py := by
  rw [isLit_ofSprite, spriteMask]
  congr 1
  cases sprite[py - y]? with
  | none => rfl
  | some byte =>
    simp only [Option.map_some, Option.getD_some, Option.elim_some, rowMask, getMsbD_spriteRow,
      getElem?_bitsOf, BEq.rfl, Bool.true_and]
    by_cases hs : px < x + spriteWidth
    · simp [hs]
    · have hk : spriteWidth ≤ px - x := by omega
      simp [BitVec.getMsbD_of_ge _ _ hk]

/-- Drawing a sprite inverts the pixels under its bits. -/
theorem inverts_draw (screen : Screen) (sprite : Bytes) (x y : Int) :
    Inverts (spriteMask sprite (x % screenWidth).toNat (y % screenHeight).toNat) (screen, false)
      (screen.draw sprite x y) where
  isLit px py := by rw [draw, isLit_invert, isLit_ofSprite_eq_spriteMask]
  collision := by
    simp only [draw, meets_iff, isLit_ofSprite_eq_spriteMask, Bool.false_eq_true, false_or,
      and_comm]

/-- Drawing a sprite and scanning it lead to the same screen and find the same collisions. -/
theorem draw_eq_scan (screen : Screen) (sprite : Bytes) (x y : Int) :
    screen.draw sprite x y =
      scan (x % screenWidth).toNat sprite (y % screenHeight).toNat (screen, false) :=
  (inverts_draw screen sprite x y).unique (inverts_scan sprite _ _ _)

end Screen

/-- A sprite to be drawn: its origin, the number of its rows, and the address of the first one. -/
structure Drawing where
  x : Int
  y : Int
  height : Nat
  address : Int
deriving DecidableEq

namespace Drawing

variable {d : Drawing}

/-- The command that draws a sprite. -/
def command (d : Drawing) : Command := .drawSprite d.x d.y d.height d.address

/-- All rows of the sprite lie in memory. -/
def Fits (d : Drawing) : Prop := Memory.Contains d.address d.height

instance (d : Drawing) : Decidable d.Fits := inferInstanceAs (Decidable (Memory.Contains _ _))

/-- The pixel in column `px` of row `py` is under a bit of the sprite that is set.  The origin is
reduced to the screen; what lies to the right of it or below is cut off. -/
def inks (d : Drawing) (memory : Memory) (px py : Nat) : Bool :=
  let x := (d.x % screenWidth).toNat
  let y := (d.y % screenHeight).toNat
  (y ≤ py ∧ py < min (y + d.height) screenHeight) ∧
    (x ≤ px ∧ px < min (x + spriteWidth) screenWidth) ∧
    (memory.byteAt (d.address + (py - y : Nat)).toNat).toNat.testBit (7 - (px - x))

/-- The rows of the sprite. -/
def rows (d : Drawing) (memory : Memory) : Bytes := memory.slice d.address.toNat d.height

theorem inks_iff (memory : Memory) (px py : Nat) :
    d.inks memory px py = true ↔
      ((d.y % screenHeight).toNat ≤ py ∧
        py < min ((d.y % screenHeight).toNat + d.height) screenHeight) ∧
      ((d.x % screenWidth).toNat ≤ px ∧
        px < min ((d.x % screenWidth).toNat + spriteWidth) screenWidth) ∧
      (memory.byteAt (d.address + (py - (d.y % screenHeight).toNat : Nat)).toNat).toNat.testBit
        (7 - (px - (d.x % screenWidth).toNat)) = true :=
  decide_eq_true_iff

/-- An address within a sprite that fits, reckoned from the first one. -/
theorem toNat_address_add (h : d.Fits) {row : Nat} (hrow : row < d.height) :
    (d.address + row).toNat = d.address.toNat + row := by
  have hlow : 0 ≤ d.address := by
    obtain h | h := h
    · omega
    · exact h.1
  omega

theorem inks_eq_inSprite (h : d.Fits) (m : Machine) (px py : Nat) :
    d.inks m.memory px py = m.view.inSprite d.x d.y d.height d.address.toNat px py := by
  rw [Bool.eq_iff_iff, inks_iff, View.inSprite, decide_eq_true_iff]
  generalize (d.x % screenWidth).toNat = x
  generalize (d.y % screenHeight).toNat = y
  simp only [Nat.lt_min]
  constructor
  · rintro ⟨⟨hy, hrow, hp⟩, ⟨hx, hs, hw⟩, hbit⟩
    rw [toNat_address_add h (by omega)] at hbit
    exact ⟨hx, hs, hw, hy, hrow, hp, hbit⟩
  · rintro ⟨hx, hs, hw, hy, hrow, hp, hbit⟩
    rw [toNat_address_add h (by omega)]
    exact ⟨⟨hy, hrow, hp⟩, ⟨hx, hs, hw⟩, hbit⟩

/-- What a sprite that fits does to a screen, and whether it collides. -/
def drawnOn (d : Drawing) (m : Machine) : Screen × Bool :=
  m.screen.draw (d.rows m.memory) d.x d.y

theorem inverts_drawnOn (h : d.Fits) (m : Machine) :
    Screen.Inverts (d.inks m.memory) (m.screen, false) (d.drawnOn m) := by
  refine (Screen.inverts_draw ..).congr fun px py ↦ ?_
  rw [inks_eq_inSprite h, ← Machine.isLit_ofSprite_slice, Screen.isLit_ofSprite_eq_spriteMask]
  rfl

end Drawing

namespace Interpreter

variable {i : Interpreter} {d : Drawing}

theorem perform_of_fits (h : d.Fits) :
    perform d.command i =
      ⟨i.withMachine { i.machine with screen := (d.drawnOn i.machine).1, redraw := true },
        .ok (.flag (d.drawnOn i.machine).2), []⟩ := by
  rw [Drawing.command, perform]
  exact ask_of_ok (Machine.drawSprite_of_contains _ h)

theorem perform_of_not_fits (h : ¬ d.Fits) :
    perform d.command i =
      ⟨i, .error (.ofCause (.outOfBounds .memory (d.address + d.height - 1))), []⟩ := by
  rw [Drawing.command, perform]
  exact ask_of_error (Machine.drawSprite_of_not_contains _ h)

/-- The law of a pixel.  A sprite whose rows lie in memory inverts the pixels under its bits, as
going through the bits one by one does, and tells whether one of them was lit; nothing else changes
but that the screen has been drawn on.  A sprite that does not fit is refused and changes nothing,
even if the rows outside of memory would have been cut off. -/
theorem drawing_inverts_pixels (i : Interpreter) (d : Drawing) :
    (d.Fits → ∃ screen collision,
      perform d.command i =
        ⟨i.withMachine { i.machine with screen := screen, redraw := true },
          .ok (.flag collision), []⟩ ∧
      (∀ px py, screen.isLit px py =
        (i.machine.screen.isLit px py ^^ d.inks i.machine.memory px py)) ∧
      (collision = true ↔
        ∃ px py, d.inks i.machine.memory px py = true ∧ i.machine.screen.isLit px py = true) ∧
      (screen, collision) =
        Screen.scan (d.x % screenWidth).toNat (d.rows i.machine.memory) (d.y % screenHeight).toNat
          (i.machine.screen, false)) ∧
    (¬ d.Fits →
      perform d.command i =
        ⟨i, .error (.ofCause (.outOfBounds .memory (d.address + d.height - 1))), []⟩) := by
  refine ⟨fun h ↦ ?_, perform_of_not_fits⟩
  have hinverts := d.inverts_drawnOn h i.machine
  refine ⟨(d.drawnOn i.machine).1, (d.drawnOn i.machine).2, perform_of_fits h, hinverts.isLit, ?_,
    Screen.draw_eq_scan ..⟩
  simpa using hinverts.collision

/-- In the corner of the screen a sprite loses what sticks out, and what it covers goes out.  One
that runs over the end of memory is refused, although only its first row would show. -/
theorem sprite_in_corner :
    let i := performAll [.writeBlock 0x300 [0xF0, 0x90, 0xFF], .drawSprite 62 30 1 0x300] bare
    let o := perform (Drawing.command ⟨-3, -2, 3, 0x300⟩) i
    let lit := o.state.machine.screen.isLit
    o.result = .ok (.flag true) ∧
      (lit 61 30 = true ∧ lit 62 30 = false ∧ lit 0 31 = false) ∧
      perform (Drawing.command ⟨0, 31, 3, 0xFFE⟩) i =
        ⟨i, .error (.ofCause (.outOfBounds .memory 0x1000)), []⟩ := by
  intro i o lit
  obtain ⟨screen, collision, ho, hlit, hcollision, -⟩ :=
    (drawing_inverts_pixels i ⟨-3, -2, 3, 0x300⟩).1 (by decide)
  have hresult : o.result = .ok (.flag collision) := congrArg Outcome.result ho
  have hscreen : lit = screen.isLit := congrArg (·.state.machine.screen.isLit) ho
  rw [hcollision.2 ⟨62, 30, by decide +kernel⟩] at hresult
  refine ⟨hresult, ?_, (drawing_inverts_pixels i _).2 (by decide)⟩
  rw [hscreen, hlit, hlit, hlit]
  decide +kernel

end Interpreter

end ChipEight
