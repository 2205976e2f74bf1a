import ChipEight.Machine

/-!
# The call stack as a function

What opening or closing a call makes of the call stack, or for which cause it cannot be done.  The
depth is looked at before a slot is written or given up, so that a stack which refuses is the stack
as it was.
-/

namespace ChipEight

namespace CallStack

variable {s t : CallStack} {address : Int} {cause : Cause}

/-- The stack with a call opened that will return to `address`. -/
def opened (s : CallStack) (address : Int) : Except Cause CallStack :=
  if s.depth < stackSize then .ok (s.store address).raise else .error overflow

/-- The return address of the innermost call, and the stack with that call closed. -/
def closed (s : CallStack) : Except Cause (Int × CallStack) :=
  if 0 < s.depth then .ok (s.lower.slot s.lower.depth, s.lower) else .error underflow

theorem opened_of_lt (h : s.depth < stackSize) (address : Int) :
    s.opened address = .ok (s.store address).raise := if_pos h

theorem closed_of_pos (h : 0 < s.depth) : s.closed = .ok (s.lower.slot s.lower.depth, s.lower) :=
  if_pos h

/-- Only a full stack takes no more calls. -/
theorem opened_eq_error_iff :
    s.opened address = .error cause ↔ s.depth = stackSize ∧ cause = overflow := by
  have := s.depth_le
  unfold opened
  split
  · simp only [reduceCtorEq, false_iff, not_and]; omega
  · simp only [Except.error.injEq, eq_comm (a := overflow), iff_and_self]; omega

/-- Only from an empty stack no call can be closed. -/
theorem closed_eq_error_iff : s.closed = .error cause ↔ s.depth = 0 ∧ cause = underflow := by
  unfold closed
  split
  · simp only [reduceCtorEq, false_iff, not_and]; omega
  · simp only [Except.error.injEq, eq_comm (a := underflow), iff_and_self]; omega

theorem push_of_opened (h : s.opened address = .ok t) : push address s = ⟨t, .ok (), []⟩ := by
  unfold opened at h
  split at h
  · next hroom =>
    cases h
    rw [push, Action.gets_bind, Action.require_bind_of_pos hroom]
    rfl
  · cases h

/-- A full stack refuses a call and stays as it is. -/
theorem push_of_not_opened (h : s.opened address = .error cause) :
    push address s = ⟨s, .error (.ofCause cause), []⟩ := by
  obtain ⟨hfull, rfl⟩ := opened_eq_error_iff.1 h
  rw [push, Action.gets_bind, Action.require_bind_of_neg (Nat.not_lt.2 (Nat.le_of_eq hfull.symm))]

theorem pop_of_closed (h : s.closed = .ok (address, t)) : pop s = ⟨t, .ok address, []⟩ := by
  unfold closed at h
  split at h
  · next hopen =>
    cases h
    rw [pop, Action.gets_bind, Action.require_bind_of_pos hopen]
    rfl
  · cases h

/-- An empty stack refuses a return and stays as it is. -/
theorem pop_of_not_closed (h : s.closed = .error cause) :
    pop s = ⟨s, .error (.ofCause cause), []⟩ := by
  obtain ⟨hempty, rfl⟩ := closed_eq_error_iff.1 h
  rw [pop, Action.gets_bind, Action.require_bind_of_neg (Nat.not_lt.2 (Nat.le_of_eq hempty))]

/-! ## Slots -/

/-- Opening a call fills the first slot that is not in use. -/
theorem slot_opened (h : s.opened address = .ok t) (k : Nat) :
    t.slot k = if k = s.depth then address else s.slot k := by
  unfold opened at h
  split at h
  · next hroom =>
    cases h
    have hslots : (s.store address).raise.slots = s.slots.setIfInBounds s.depth address := by
      rw [raise]
      split <;> rfl
    simp only [slot, hslots, Vector.getElem?_setIfInBounds, eq_comm (a := k)]
    split
    · simp
    · rfl
  · cases h

theorem depth_opened (h : s.opened address = .ok t) : t.depth = s.depth + 1 := by
  unfold opened at h
  split at h
  · next hroom =>
    cases h
    exact congrArg depth (dif_pos (show (s.store address).depth < stackSize from hroom))
  · cases h

/-- Closing a call gives the last slot in use and leaves every slot as it was. -/
theorem slot_closed (h : s.closed = .ok (address, t)) :
    address = s.slot (s.depth - 1) ∧ t.slot = s.slot := by
  unfold closed at h
  split at h
  · cases h
    exact ⟨rfl, rfl⟩
  · cases h

theorem depth_closed (h : s.closed = .ok (address, t)) : t.depth = s.depth - 1 := by
  unfold closed at h
  split at h
  · cases h
    rfl
  · cases h

/-! ## Return addresses -/

/-- The return addresses are the slots in use, one after the other. -/
theorem toList_eq_map_slot (s : CallStack) : s.toList = (List.range s.depth).map s.slot := by
  have := s.depth_le
  refine List.ext_getElem (by simp) fun k hk _ ↦ ?_
  have hsize : k < stackSize := by
    rw [length_toList] at hk
    omega
  simp [toList, slot, Vector.getElem?_eq_getElem hsize]

/-- Opening a call puts its address behind the others. -/
theorem toList_opened (h : s.opened address = .ok t) : t.toList = s.toList ++ [address] := by
  rw [toList_eq_map_slot, toList_eq_map_slot, depth_opened h, List.range_succ, List.map_append,
    List.map_singleton, slot_opened h, if_pos rfl]
  refine congrArg (· ++ _) (List.map_congr_left fun k hk ↦ ?_)
  rw [slot_opened h, if_neg (Nat.ne_of_lt (List.mem_range.1 hk))]

/-- Closing a call takes away the last address. -/
theorem toList_closed (h : s.closed = .ok (address, t)) : s.toList = t.toList ++ [address] := by
  obtain ⟨rfl, hslots⟩ := slot_closed h
  have hopen : s.depth ≠ 0 := by
    intro hempty
    rw [closed_eq_error_iff.2 ⟨hempty, rfl⟩] at h
    cases h
  have hdepth : s.depth = t.depth + 1 := by
    rw [depth_closed h]
    omega
  rw [toList_eq_map_slot, toList_eq_map_slot, hslots, hdepth, List.range_succ, List.map_append,
    List.map_singleton, Nat.add_sub_cancel]

end CallStack

namespace Machine

variable {m : Machine} {stack : CallStack} {address : Int} {cause : Cause}

theorem push_of_opened (h : m.stack.opened address = .ok stack) :
    push address m = ⟨{ m with stack := stack }, .ok (), []⟩ := by
  rw [push, onStack, Action.on_apply, CallStack.push_of_opened h]

theorem push_of_not_opened (h : m.stack.opened address = .error cause) :
    push address m = ⟨m, .error (.ofCause cause), []⟩ := by
  rw [push, onStack, Action.on_apply, CallStack.push_of_not_opened h]

theorem pop_of_closed (h : m.stack.closed = .ok (address, stack)) :
    pop m = ⟨{ m with stack := stack }, .ok address, []⟩ := by
  rw [pop, onStack, Action.on_apply, CallStack.pop_of_closed h]

theorem pop_of_not_closed (h : m.stack.closed = .error cause) :
    pop m = ⟨m, .error (.ofCause cause), []⟩ := by
  rw [pop, onStack, Action.on_apply, CallStack.pop_of_not_closed h]

end Machine

end ChipEight
