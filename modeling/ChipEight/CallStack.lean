import ChipEight.Action

/-!
# The call stack

A fixed row of slots, of which the lowest `depth` are in use. `CallStack.toList` is the stack as a
list, the oldest return address first; slots above the depth keep what they last held and are never
read.
-/

namespace ChipEight

/-- Return addresses of the calls that are open. -/
structure CallStack where
  slots : Vector Int stackSize
  depth : Nat
  depth_le : depth ≤ stackSize
deriving DecidableEq

namespace CallStack

/-- No call is open. -/
def empty : CallStack := ⟨Vector.replicate stackSize 0, 0, Nat.zero_le _⟩

/-- The open return addresses, oldest first. -/
def toList (s : CallStack) : List Int := s.slots.toList.take s.depth

/-- The return address of the innermost open call. -/
def top? (s : CallStack) : Option Int := s.toList.getLast?

/-- The return address in a slot, whether or not it is in use; zero where there is no slot. -/
def slot (s : CallStack) (k : Nat) : Int := s.slots[k]?.getD 0

/-- All slots are in use. -/
def overflow : Cause :=
  .stackOverflow ("Stack overflow on CALL (depth " ++ toString stackSize ++ ")")

/-- No slot is in use. -/
def underflow : Cause := .stackUnderflow "Stack underflow on RET"

/-- Puts an address into the first slot that is not in use. -/
def store (s : CallStack) (address : Int) : CallStack :=
  { s with slots := s.slots.setIfInBounds s.depth address }

/-- Takes one slot more into use, if there is one. -/
def raise (s : CallStack) : CallStack :=
  if h : s.depth < stackSize then { s with depth := s.depth + 1, depth_le := h } else s

/-- Gives up the last slot in use, if there is one. -/
def lower (s : CallStack) : CallStack :=
  { s with depth := s.depth - 1, depth_le := Nat.le_trans (Nat.sub_le _ _) s.depth_le }

/-- Opens a call that will return to `address`. -/
def push (address : Int) : Action CallStack Unit := do
  Action.require ((← Action.gets depth) < stackSize) (.ofCause overflow)
  Action.modify (·.store address)
  Action.modify raise

/-- Closes the innermost call and gives its return address. -/
def pop : Action CallStack Int := do
  Action.require (0 < (← Action.gets depth)) (.ofCause underflow)
  Action.modify lower
  Action.gets fun s ↦ s.slot s.depth

@[simp] theorem toList_empty : empty.toList = [] := rfl

@[simp] theorem slot_empty (k : Nat) : empty.slot k = 0 := by
  simp only [slot, empty, Vector.getElem?_replicate]
  split
  · rfl
  · rfl

@[simp] theorem length_toList (s : CallStack) : s.toList.length = s.depth := by
  have := s.depth_le
  simp only [toList, List.length_take, Vector.length_toList]; omega

/-- Stacks of the same depth with the same slots are the same. -/
theorem ext_slot {s t : CallStack} (hd : s.depth = t.depth) (h : ∀ k, s.slot k = t.slot k) :
    s = t := by
  obtain ⟨s, d, hs⟩ := s
  obtain ⟨t, e, ht⟩ := t
  obtain rfl : d = e := hd
  congr 1
  refine Vector.ext fun k hk ↦ ?_
  simpa [slot, Vector.getElem?_eq_getElem hk] using h k

end CallStack

end ChipEight
