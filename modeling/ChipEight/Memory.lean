import ChipEight.Action

/-!
# Main memory

Four kilobytes, read and written a byte or a block at a time. An access outside of memory is
refused and changes nothing; a block of no bytes lies everywhere.
-/

namespace ChipEight

/-- The contents of main memory. -/
structure Memory where
  bytes : Vector UInt8 memorySize
deriving DecidableEq

namespace Memory

/-- Memory filled with zeros. -/
def blank : Memory := ⟨Vector.replicate memorySize 0⟩

/-- The byte at an address, zero outside of memory. -/
def byteAt (m : Memory) (a : Nat) : UInt8 := m.bytes[a]?.getD 0

/-- Replaces the byte at an address; nothing happens outside of memory. -/
def setByte (m : Memory) (a : Nat) (b : UInt8) : Memory := ⟨m.bytes.setIfInBounds a b⟩

/-- Places bytes one after the other from an address on. -/
def splice (m : Memory) (a : Nat) : Bytes → Memory
  | [] => m
  | b :: rest => (m.setByte a b).splice (a + 1) rest

/-- The instruction word at an address. -/
def wordAt (m : Memory) (a : Nat) : Word := .ofBytes (m.byteAt a) (m.byteAt (a + 1))

/-- The bytes of the `n` addresses from `a` on. -/
def slice (m : Memory) (a n : Nat) : Bytes := (List.range' a n).map m.byteAt

/-- The block of `n` bytes from `a` on lies in memory. -/
def Contains (a n : Int) : Prop := n = 0 ∨ 0 ≤ a ∧ a + n ≤ memorySize

instance (a n : Int) : Decidable (Contains a n) := inferInstanceAs (Decidable (_ ∨ _))

/-- The number of bytes between two ends, of which the second lies `n` behind the first. An end
below zero counts from the end of memory. -/
def span (a n : Int) : Nat :=
  if n < 0 then if a + n < 0 then (n + memorySize).toNat else 0 else n.toNat

/-- Reads a byte. -/
def read (a : Int) : Action Memory UInt8 := do
  Action.require (0 ≤ a ∧ a < memorySize) (.ofCause (.outOfBounds .memory a))
  Action.gets (·.byteAt a.toNat)

/-- Writes a byte. -/
def write (a : Int) (b : UInt8) : Action Memory Unit := do
  Action.require (0 ≤ a ∧ a < memorySize) (.ofCause (.outOfBounds .memory a))
  Action.modify (·.setByte a.toNat b)

/-- Reads a block. The index of a block that does not fit is that of its last byte. -/
def readBlock (a n : Int) : Action Memory Bytes := do
  Action.require (Contains a n) (.ofCause (.outOfBounds .memory (a + n - 1)))
  Action.gets fun m ↦ m.slice a.toNat (span a n)

/-- Writes a block. The index of a block that does not fit is that of its last byte. -/
def writeBlock (a : Int) (data : Bytes) : Action Memory Unit := do
  Action.require (Contains a data.length) (.ofCause (.outOfBounds .memory (a + data.length - 1)))
  Action.modify (·.splice a.toNat data)

@[simp] theorem byteAt_blank (a : Nat) : blank.byteAt a = 0 := by
  simp only [byteAt, blank, Vector.getElem?_replicate]
  split <;> rfl

/-- Memories with the same bytes are the same. -/
@[ext] theorem ext_byteAt {m n : Memory} (h : ∀ a, m.byteAt a = n.byteAt a) : m = n := by
  obtain ⟨m⟩ := m
  obtain ⟨n⟩ := n
  congr 1
  refine Vector.ext fun a ha ↦ ?_
  simpa [byteAt, Vector.getElem?_eq_getElem ha] using h a

theorem byteAt_setByte (m : Memory) (a k : Nat) (b : UInt8) :
    (m.setByte a b).byteAt k = if a = k ∧ k < memorySize then b else m.byteAt k := by
  simp only [byteAt, setByte, Vector.getElem?_setIfInBounds]
  grind

@[simp] theorem splice_nil (m : Memory) (a : Nat) : m.splice a [] = m := rfl

@[simp] theorem splice_cons (m : Memory) (a : Nat) (b : UInt8) (rest : Bytes) :
    m.splice a (b :: rest) = (m.setByte a b).splice (a + 1) rest := rfl

/-- A byte after a splice comes from the data where there is data and from before elsewhere. -/
theorem byteAt_splice (m : Memory) (a k : Nat) (data : Bytes) :
    (m.splice a data).byteAt k =
      if a ≤ k ∧ k < memorySize then data[k - a]?.getD (m.byteAt k) else m.byteAt k := by
  induction data generalizing m a with
  | nil => simp
  | cons b rest ih =>
    rw [splice_cons, ih, byteAt_setByte]
    rcases Nat.lt_trichotomy a k with h | h | h
    · rw [show k - a = k - (a + 1) + 1 by omega]
      grind
    · subst h
      grind
    · grind

@[simp] theorem length_slice (m : Memory) (a n : Nat) : (m.slice a n).length = n := by
  simp [slice]

/-- A slice holds the bytes from its address on. -/
@[simp] theorem getElem_slice (m : Memory) (a n i : Nat) (h : i < (m.slice a n).length) :
    (m.slice a n)[i] = m.byteAt (a + i) := by
  simp [slice]

theorem getElem?_slice (m : Memory) (a n i : Nat) :
    (m.slice a n)[i]? = if i < n then some (m.byteAt (a + i)) else none := by
  by_cases h : i < n
  · simp [slice, h]
  · simp [slice, h]

@[simp] theorem contains_zero (a : Int) : Contains a 0 := .inl rfl

/-- A length that is not negative is the number of bytes of a block. -/
@[simp] theorem span_natCast (a : Int) (n : Nat) : span a n = n := by
  simp [span, Int.not_lt.2 (Int.natCast_nonneg n)]

/-- A block that begins at zero or above lies in memory if it is empty or ends there. -/
theorem contains_natCast {a n : Nat} : Contains a n ↔ n = 0 ∨ a + n ≤ memorySize := by
  unfold Contains
  omega

theorem not_contains_natCast {a n : Nat} (hn : 0 < n) (h : memorySize < a + n) :
    ¬ Contains a n := by
  rw [contains_natCast]
  omega

theorem read_of_inside (m : Memory) {a : Int} (h : 0 ≤ a ∧ a < memorySize) :
    read a m = ⟨m, .ok (m.byteAt a.toNat), []⟩ := by
  rw [read, Action.require_bind_of_pos h]
  rfl

theorem read_of_outside (m : Memory) {a : Int} (h : ¬ (0 ≤ a ∧ a < memorySize)) :
    read a m = ⟨m, .error (.ofCause (.outOfBounds .memory a)), []⟩ :=
  Action.require_bind_of_neg h _ _ m

theorem write_of_inside (m : Memory) {a : Int} (b : UInt8) (h : 0 ≤ a ∧ a < memorySize) :
    write a b m = ⟨m.setByte a.toNat b, .ok (), []⟩ := by
  rw [write, Action.require_bind_of_pos h]
  rfl

theorem write_of_outside (m : Memory) {a : Int} (b : UInt8) (h : ¬ (0 ≤ a ∧ a < memorySize)) :
    write a b m = ⟨m, .error (.ofCause (.outOfBounds .memory a)), []⟩ :=
  Action.require_bind_of_neg h _ _ m

theorem readBlock_of_contains (m : Memory) {a n : Int} (h : Contains a n) :
    readBlock a n m = ⟨m, .ok (m.slice a.toNat (span a n)), []⟩ := by
  rw [readBlock, Action.require_bind_of_pos h]
  rfl

theorem readBlock_of_not_contains (m : Memory) {a n : Int} (h : ¬ Contains a n) :
    readBlock a n m = ⟨m, .error (.ofCause (.outOfBounds .memory (a + n - 1))), []⟩ :=
  Action.require_bind_of_neg h _ _ m

theorem writeBlock_of_contains (m : Memory) {a : Int} {data : Bytes} (h : Contains a data.length) :
    writeBlock a data m = ⟨m.splice a.toNat data, .ok (), []⟩ := by
  rw [writeBlock, Action.require_bind_of_pos h]
  rfl

theorem writeBlock_of_not_contains (m : Memory) {a : Int} {data : Bytes}
    (h : ¬ Contains a data.length) :
    writeBlock a data m =
      ⟨m, .error (.ofCause (.outOfBounds .memory (a + data.length - 1))), []⟩ :=
  Action.require_bind_of_neg h _ _ m

end Memory

end ChipEight
