import ChipEight.Machine
import Mathlib.Logic.Function.Basic

/-!
# The machine in numbers

A `View` says in plain numbers what every part of a machine holds.  Machines with the same view are
the same, and what an operation does to a machine is said by what it does to the view, so that
statements about instructions need none of the machine's words of fixed width.
-/

namespace ChipEight

/-- What the parts of a machine hold. -/
@[ext]
structure View where
  /-- The byte at each address. -/
  memory : Nat → Nat
  registers : Nibble → Nat
  index : Nat
  pc : Int
  /-- The slots of the call stack, those out of use as well. -/
  slots : Nat → Int
  depth : Nat
  delay : Nat
  sound : Nat
  /-- The pixel in a column of a row. -/
  lit : Nat → Nat → Bool
  keys : Nat → Bool
  redraw : Bool
  busy : Bool

namespace View

/-- The view with another value of a register. -/
def put (v : View) (x : Nibble) (value : Nat) : View :=
  { v with registers := Function.update v.registers x value }

/-- The view with `count` bytes of memory replaced from an address on. -/
def fill (v : View) (address count : Nat) (byte : Nat → Nat) : View :=
  { v with
    memory := fun a ↦
      if address ≤ a ∧ a < address + count then byte (a - address) else v.memory a }

/-- Only the bytes of the block count. -/
theorem fill_congr (v : View) (address : Nat) {count : Nat} {f g : Nat → Nat}
    (h : ∀ k < count, f k = g k) : v.fill address count f = v.fill address count g := by
  ext : 1
  case memory =>
    funext a
    simp only [fill]
    split
    · exact h _ (by omega)
    · rfl
  all_goals rfl

/-- The pixel in column `px` of row `py` belongs to the sprite of `height` rows at an address that
is drawn at `(x, y)`: its origin wraps around the screen, and what sticks out is cut off. -/
def inSprite (v : View) (x y : Int) (height address px py : Nat) : Bool :=
  let x := (x % screenWidth).toNat
  let y := (y % screenHeight).toNat
  x ≤ px ∧ px < x + spriteWidth ∧ px < screenWidth ∧
    y ≤ py ∧ py < y + height ∧ py < screenHeight ∧
    (v.memory (address + (py - y))).testBit (7 - (px - x))

/-- Some pixel of the sprite is lit. -/
def Hits (v : View) (x y : Int) (height address : Nat) : Prop :=
  ∃ px < screenWidth, ∃ py < screenHeight, v.lit px py ∧ v.inSprite x y height address px py

instance (v : View) (x y : Int) (height address : Nat) : Decidable (v.Hits x y height address) :=
  inferInstanceAs (Decidable (∃ px < screenWidth, _))

/-- The view with a sprite drawn over what was lit. -/
def blit (v : View) (x y : Int) (height address : Nat) : View :=
  { v with
    lit := fun px py ↦ v.lit px py ^^ v.inSprite x y height address px py
    redraw := true }

end View

namespace Machine

/-- The machine in numbers. -/
def view (m : Machine) : View where
  memory a := (m.memory.byteAt a).toNat
  registers x := (m.register x).toNat
  index := m.index.toNat
  pc := m.pc
  slots := m.stack.slot
  depth := m.stack.depth
  delay := m.delay.toNat
  sound := m.sound.toNat
  lit := m.screen.isLit
  keys := m.keypad.isDown
  redraw := m.redraw
  busy := m.busy

/-- Nothing of a machine is missing in its view. -/
theorem view_injective : Function.Injective view := by
  intro m n h
  simp only [view, View.mk.injEq] at h
  obtain ⟨memory, registers, index, pc, slots, depth, delay, sound, lit, keys, redraw, busy⟩ := h
  obtain ⟨⟩ := m
  obtain ⟨⟩ := n
  simp only [mk.injEq]
  refine ⟨?_, ?_, UInt16.toNat_inj.1 index, pc, CallStack.ext_slot depth (congrFun slots),
    UInt8.toNat_inj.1 delay, UInt8.toNat_inj.1 sound, ?_, Keypad.ext_isDown (congrFun keys),
    redraw, busy⟩
  · exact Memory.ext_byteAt fun a ↦ UInt8.toNat_inj.1 (congrFun memory a)
  · exact Vector.ext fun x hx ↦ UInt8.toNat_inj.1 (congrFun registers ⟨x, hx⟩)
  · exact Screen.ext_isLit fun x y ↦ congrFun (congrFun lit x) y

/-! ## Operations through the view -/

theorem register_setRegister (m : Machine) (x y : Nibble) (value : UInt8) :
    (m.setRegister x value).register y = if y = x then value else m.register y := by
  simp only [register, setRegister]
  by_cases h : y = x
  · subst h
    simp
  · have : (x : Nat) ≠ y := fun e ↦ h (Fin.ext e.symm)
    simp [h, Vector.getElem_set_ne, this]

@[simp] theorem view_setRegister (m : Machine) (x : Nibble) (value : UInt8) :
    (m.setRegister x value).view = m.view.put x value.toNat := by
  ext : 1
  case registers =>
    funext y
    simp only [view, View.put, register_setRegister, Function.update_apply]
    split <;> rfl
  all_goals rfl

@[simp] theorem view_pointTo (m : Machine) (address : UInt16) :
    (m.pointTo address).view = { m.view with index := address.toNat } := rfl

@[simp] theorem view_clearScreen (m : Machine) :
    m.clearScreen.view = { m.view with lit := fun _ _ ↦ false, redraw := true } := by
  ext : 1
  case lit =>
    funext x y
    exact Screen.isLit_dark x y
  all_goals rfl

/-- A move that stays within the bits of the program counter is a jump. -/
theorem moveBy_eq_jumpTo {m : Machine} {offset : Int} (h : 0 ≤ m.pc + offset)
    (h' : m.pc + offset < 0x10000) : m.moveBy offset = m.jumpTo (m.pc + offset) := by
  simp only [moveBy, jumpTo, wrapAddress, Int.emod_eq_of_lt h h']

/-- Registers for which there is no value keep theirs. -/
theorem view_setRegisters (m : Machine) (values : Bytes) :
    (m.setRegisters values).view =
      { m.view with registers := fun r ↦ (values[r.val]?.getD (m.register r)).toNat } := by
  ext : 1
  case registers =>
    funext r
    simp [view, register, setRegisters]
  all_goals rfl

/-! ### Blocks of memory -/

/-- A block of bytes that lies in memory replaces what was in its place. -/
theorem view_splice (m : Machine) {address : Nat} {data : Bytes}
    (h : Memory.Contains address data.length) :
    view { m with memory := m.memory.splice address data } =
      m.view.fill address data.length fun k ↦ (data[k]?.getD 0).toNat := by
  ext : 1
  case memory =>
    funext a
    have := Memory.contains_natCast.1 h
    simp only [view, View.fill, Memory.byteAt_splice]
    grind
  all_goals rfl

/-! ### Sprites -/

/-- A bit counted from the left is one counted from the right. -/
theorem getMsbD_eq_testBit (b : UInt8) {k : Nat} (h : k < 8) :
    b.toBitVec.getMsbD k = b.toNat.testBit (7 - k) := by
  simp [BitVec.getMsbD, h, BitVec.getLsbD]

/-- The pixels that a block of memory lights as a sprite. -/
theorem isLit_ofSprite_slice (m : Machine) (x y : Int) (height address px py : Nat) :
    (Screen.ofSprite (m.memory.slice address height) (x % screenWidth).toNat
      (y % screenHeight).toNat).isLit px py = m.view.inSprite x y height address px py := by
  simp only [Screen.isLit_ofSprite, Screen.getMsbD_spriteRow, View.inSprite]
  generalize (x % screenWidth).toNat = x
  generalize (y % screenHeight).toNat = y
  rw [Memory.getElem?_slice]
  by_cases hx : x ≤ px ∧ px < screenWidth ∧ px < x + spriteWidth
  · have hbit := getMsbD_eq_testBit (m.memory.byteAt (address + (py - y)))
      (show px - x < 8 by have := hx.2.2; simp only [spriteWidth] at this; omega)
    by_cases hy : y ≤ py ∧ py < screenHeight ∧ py - y < height
    · have : py < y + height := by omega
      simp [hx, hy, hbit, this, view]
    · have : ¬ (y ≤ py ∧ py < y + height ∧ py < screenHeight) := by omega
      simp only [hx]
      grind
  · grind

/-- What drawing a sprite from memory does to the pixels. -/
theorem view_draw (m : Machine) (x y : Int) (height address : Nat) :
    view { m with
      screen := (m.screen.draw (m.memory.slice address height) x y).1
      redraw := true } = m.view.blit x y height address := by
  ext : 1
  case lit =>
    funext px py
    simp only [view, View.blit, Screen.draw, Screen.isLit_invert, isLit_ofSprite_slice]
  all_goals rfl

/-- A sprite from memory collides with what is lit if it hits a lit pixel. -/
theorem draw_collides_iff (m : Machine) (x y : Int) (height address : Nat) :
    (m.screen.draw (m.memory.slice address height) x y).2 ↔ m.view.Hits x y height address := by
  simp only [Screen.draw, Screen.meets_iff, isLit_ofSprite_slice]
  constructor
  · rintro ⟨px, py, hs, hm⟩
    obtain ⟨hx, hy⟩ := Screen.lt_of_isLit hs
    exact ⟨px, hx, py, hy, hs, hm⟩
  · rintro ⟨px, -, py, -, hs, hm⟩
    exact ⟨px, py, hs, hm⟩

end Machine

end ChipEight
