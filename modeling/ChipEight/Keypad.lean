import ChipEight.Action

/-!
# The keypad

Sixteen keys, numbered by hexadecimal digits. The host presses and releases them; a program asks
whether one is down.
-/

namespace ChipEight

/-- Which keys are down. -/
structure Keypad where
  down : Vector Bool keyCount
deriving DecidableEq

namespace Keypad

/-- No key is down. -/
def released : Keypad := ⟨Vector.replicate keyCount false⟩

/-- The states of all keys in the order of their numbers. -/
def toList (k : Keypad) : List Bool := k.down.toList

/-- Whether a key is down; no other key is. -/
def isDown (k : Keypad) (key : Nat) : Bool := k.down[key]?.getD false

/-- The keypad with a key pressed or released. -/
def put (k : Keypad) (key : Nat) (down : Bool) : Keypad := ⟨k.down.setIfInBounds key down⟩

/-- Whether a key is down. -/
def isPressed (key : Int) : Action Keypad Bool := do
  Action.require (0 ≤ key ∧ key < keyCount) (.ofCause (.outOfBounds .key key))
  Action.gets (·.isDown key.toNat)

/-- Presses or releases a key. -/
def set (key : Int) (down : Bool) : Action Keypad Unit := do
  Action.require (0 ≤ key ∧ key < keyCount) (.ofCause (.outOfBounds .key key))
  Action.modify (·.put key.toNat down)

/-- Presses and releases all keys at once, given a state for each key. -/
def setAll (states : List Bool) : Action Keypad Unit :=
  if h : states.length = keyCount then Action.modify fun _ ↦ ⟨⟨states.toArray, h⟩⟩
  else Action.fail (.refusal (.keyStates states.length))

/-- Releases all keys. -/
def clear : Action Keypad Unit := Action.modify fun _ ↦ released

@[simp] theorem length_toList (k : Keypad) : k.toList.length = keyCount :=
  k.down.length_toList

@[simp] theorem isDown_released (key : Nat) : released.isDown key = false := by
  simp only [isDown, released, Vector.getElem?_replicate]
  split <;> rfl

/-- Keypads with the same keys down are the same. -/
@[ext] theorem ext_isDown {k l : Keypad} (h : ∀ key, k.isDown key = l.isDown key) : k = l := by
  obtain ⟨k⟩ := k
  obtain ⟨l⟩ := l
  congr 1
  refine Vector.ext fun key hk ↦ ?_
  simpa [isDown, Vector.getElem?_eq_getElem hk] using h key

/-- Setting a key changes that key alone. -/
theorem isDown_put (k : Keypad) {key : Nat} (h : key < keyCount) (down : Bool) (other : Nat) :
    (k.put key down).isDown other = if other = key then down else k.isDown other := by
  simp only [isDown, put, Vector.getElem?_setIfInBounds]
  grind

theorem isPressed_of_inside (k : Keypad) {key : Int} (h : 0 ≤ key ∧ key < keyCount) :
    isPressed key k = ⟨k, .ok (k.isDown key.toNat), []⟩ := by
  rw [isPressed, Action.require_bind_of_pos h]
  rfl

theorem isPressed_of_outside (k : Keypad) {key : Int} (h : ¬ (0 ≤ key ∧ key < keyCount)) :
    isPressed key k = ⟨k, .error (.ofCause (.outOfBounds .key key)), []⟩ :=
  Action.require_bind_of_neg h _ _ k

theorem set_of_inside (k : Keypad) {key : Int} (down : Bool) (h : 0 ≤ key ∧ key < keyCount) :
    set key down k = ⟨k.put key.toNat down, .ok (), []⟩ := by
  rw [set, Action.require_bind_of_pos h]
  rfl

theorem set_of_outside (k : Keypad) {key : Int} (down : Bool) (h : ¬ (0 ≤ key ∧ key < keyCount)) :
    set key down k = ⟨k, .error (.ofCause (.outOfBounds .key key)), []⟩ :=
  Action.require_bind_of_neg h _ _ k

/-- A list of key states gives each key its state. -/
theorem setAll_of_length_eq (k : Keypad) {states : List Bool} (h : states.length = keyCount) :
    setAll states k = ⟨⟨⟨states.toArray, h⟩⟩, .ok (), []⟩ := by
  rw [setAll, dif_pos h]
  rfl

/-- Each key is down if the list says so. -/
theorem isDown_toArray {states : List Bool} (h : states.length = keyCount) (key : Nat) :
    isDown ⟨⟨states.toArray, h⟩⟩ key = states[key]?.getD false := by
  simp [isDown]

theorem setAll_of_length_ne (k : Keypad) {states : List Bool} (h : states.length ≠ keyCount) :
    setAll states k = ⟨k, .error (.refusal (.keyStates states.length)), []⟩ := by
  rw [setAll, dif_neg h]
  rfl

end Keypad

end ChipEight
