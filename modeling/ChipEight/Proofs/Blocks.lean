import ChipEight.Proofs.Halting

/-!
# Blocks of bytes

A block of memory is read or written at one go, after a single check.  It comes to the same as
reading or writing its bytes one after the other: the block lies in memory exactly if each of its
bytes does, and since no two bytes of a block have the same address, the order of the writes is of
no matter.  A block of no bytes lies everywhere.
-/

namespace ChipEight

namespace Memory

variable {m : Memory}

/-- An address in memory. -/
def Inside (address : Int) : Prop := 0 ≤ address ∧ address < memorySize

/-- A block lies in memory if all its bytes do, unless it has none. -/
theorem contains_iff_inside {address : Int} {count : Nat} (hcount : 0 < count) :
    Contains address count ↔ ∀ k < count, Inside (address + (k : Nat)) := by
  constructor
  · rintro (hnone | ⟨hbegin, hend⟩) k hk
    · omega
    · exact ⟨by omega, by omega⟩
  · intro h
    obtain ⟨hbegin, -⟩ := h 0 hcount
    obtain ⟨-, hend⟩ := h (count - 1) (by omega)
    exact .inr ⟨by omega, by omega⟩

/-- Bytes at different addresses can be written in either order. -/
theorem setByte_comm {a b : Nat} (h : a ≠ b) (x y : UInt8) :
    (m.setByte a x).setByte b y = (m.setByte b y).setByte a x := by
  refine ext_byteAt fun k ↦ ?_
  simp only [byteAt_setByte]
  grind

/-- What has been placed in memory is found there. -/
theorem slice_splice {a : Nat} {data : Bytes} (h : Contains a data.length) :
    (m.splice a data).slice a data.length = data := by
  have hfits := contains_natCast.1 h
  refine List.ext_getElem (length_slice ..) fun k _ hk ↦ ?_
  rw [getElem_slice, byteAt_splice, if_pos (by omega), Nat.add_sub_cancel_left,
    List.getElem?_eq_getElem hk, Option.getD_some]

/-- Outside of the block memory is as before. -/
theorem byteAt_splice_of_outside {a k : Nat} {data : Bytes} (h : k < a ∨ a + data.length ≤ k) :
    (m.splice a data).byteAt k = m.byteAt k := by
  rw [byteAt_splice]
  split
  · rw [List.getElem?_eq_none (by omega), Option.getD_none]
  · rfl

end Memory

namespace Interpreter

open Memory (Contains Inside)

variable {i : Interpreter} {address : Int}

/-- The interpreter with another memory. -/
def withMemory (i : Interpreter) (m : Memory) : Interpreter :=
  i.withMachine { i.machine with memory := m }

@[simp] theorem memory_withMemory (i : Interpreter) (m : Memory) :
    (i.withMemory m).machine.memory = m := rfl

/-! ## Single bytes -/

theorem perform_read_of_inside (h : Inside address) :
    perform (.read address) i =
      ⟨i, .ok (.byte (i.machine.memory.byteAt address.toNat)), []⟩ :=
  ask_of_ok (i.machine.read_of_inside h)

theorem perform_read_of_not_inside (h : ¬ Inside address) :
    perform (.read address) i = ⟨i, .error (.ofCause (.outOfBounds .memory address)), []⟩ :=
  ask_of_error (i.machine.read_of_outside h)

theorem perform_write_of_inside (h : Inside address) (value : Int) :
    perform (.write address value) i =
      ⟨i.withMemory (i.machine.memory.setByte address.toNat (.ofInt value)), .ok .done, []⟩ :=
  ask_of_ok (i.machine.write_of_inside value h)

theorem perform_write_of_not_inside (h : ¬ Inside address) (value : Int) :
    perform (.write address value) i =
      ⟨i, .error (.ofCause (.outOfBounds .memory address)), []⟩ :=
  ask_of_error (i.machine.write_of_outside value h)

theorem isOk_read_iff : (perform (.read address) i).result.isOk ↔ Inside address := by
  by_cases h : Inside address
  · simp [perform_read_of_inside h, h, Except.isOk, Except.toBool]
  · simp [perform_read_of_not_inside h, h, Except.isOk, Except.toBool]

theorem isOk_write_iff {value : Int} :
    (perform (.write address value) i).result.isOk ↔ Inside address := by
  by_cases h : Inside address
  · simp [perform_write_of_inside h, h, Except.isOk, Except.toBool]
  · simp [perform_write_of_not_inside h, h, Except.isOk, Except.toBool]

/-! ## Blocks -/

theorem perform_readBlock_of_contains {count : Nat} (h : Contains address count) :
    perform (.readBlock address count) i =
      ⟨i, .ok (.bytes (i.machine.memory.slice address.toNat count)), []⟩ := by
  rw [perform, ask_of_ok (Machine.readBlock_of_contains _ h), Memory.span_natCast]
  rfl

theorem perform_writeBlock_of_contains {data : Bytes} (h : Contains address data.length) :
    perform (.writeBlock address data) i =
      ⟨i.withMemory (i.machine.memory.splice address.toNat data), .ok .done, []⟩ :=
  ask_of_ok (i.machine.writeBlock_of_contains h)

theorem perform_writeBlock_of_not_contains {data : Bytes} (h : ¬ Contains address data.length) :
    perform (.writeBlock address data) i =
      ⟨i, .error (.ofCause (.outOfBounds .memory (address + data.length - 1))), []⟩ :=
  ask_of_error (i.machine.writeBlock_of_not_contains h)

theorem isOk_readBlock_iff {count : Nat} :
    (perform (.readBlock address count) i).result.isOk ↔ Contains address count := by
  by_cases h : Contains address count
  · simp [perform_readBlock_of_contains h, h, Except.isOk, Except.toBool]
  · rw [perform, ask_of_error (Machine.readBlock_of_not_contains _ h)]
    simp [h, Except.isOk, Except.toBool]

theorem isOk_writeBlock_iff {data : Bytes} :
    (perform (.writeBlock address data) i).result.isOk ↔ Contains address data.length := by
  by_cases h : Contains address data.length
  · simp [perform_writeBlock_of_contains h, h, Except.isOk, Except.toBool]
  · simp [perform_writeBlock_of_not_contains h, h, Except.isOk, Except.toBool]

/-! ## Bytes one after the other -/

/-- The writes of single bytes that a block of data is made of. -/
def byteWrites (address : Int) : Bytes → List Command
  | [] => []
  | b :: rest => .write address b.toNat :: byteWrites (address + 1) rest

/-- The reads of the single bytes of a block. -/
def byteReads (address : Int) (count : Nat) : List Command :=
  (List.range count).map fun k ↦ .read (address + (k : Nat))

/-- Each write of a block has its place in it. -/
theorem mem_byteWrites_iff {data : Bytes} {c : Command} :
    c ∈ byteWrites address data ↔
      ∃ k, ∃ h : k < data.length, c = .write (address + (k : Nat)) data[k].toNat := by
  induction data generalizing address with
  | nil => simp [byteWrites]
  | cons b rest ih =>
    have hnext (k : Nat) : address + 1 + k = address + (k + 1 : Nat) := by omega
    rw [byteWrites, List.mem_cons, ih]
    constructor
    · rintro (rfl | ⟨k, hk, rfl⟩)
      · exact ⟨0, Nat.zero_lt_succ _, by simp⟩
      · exact ⟨k + 1, Nat.succ_lt_succ hk, by rw [hnext, List.getElem_cons_succ]⟩
    · rintro ⟨_ | k, hk, rfl⟩
      · exact .inl (by simp)
      · exact .inr ⟨k, Nat.lt_of_succ_lt_succ hk, by rw [hnext, List.getElem_cons_succ]⟩

/-- Commands that succeed whatever the state are all answered alike. -/
theorem transcript_of_always_done {commands : List Command}
    (h : ∀ c ∈ commands, ∀ j, (perform c j).result = .ok .done ∧ (perform c j).log = [])
    (i : Interpreter) : transcript commands i = commands.map fun _ ↦ (.ok .done, []) := by
  induction commands generalizing i with
  | nil => rfl
  | cons c commands ih =>
    obtain ⟨hhead, htail⟩ := List.forall_mem_cons.1 h
    rw [transcript, (hhead i).1, (hhead i).2, ih htail]
    rfl

theorem ofInt_toNat (b : UInt8) : UInt8.ofInt b.toNat = b := by
  have hlt := b.toNat_lt
  rw [UInt8.ofInt, Int.emod_eq_of_lt (by omega) (by omega), Int.toNat_natCast, UInt8.ofNat_toNat]

/-- Writing the bytes of a block from the first to the last places the block. -/
theorem performAll_byteWrites {data : Bytes} {a : Nat} (h : a + data.length ≤ memorySize)
    (i : Interpreter) :
    performAll (byteWrites a data) i = i.withMemory (i.machine.memory.splice a data) := by
  induction data generalizing a i with
  | nil => rfl
  | cons b rest ih =>
    rw [List.length_cons] at h
    have hinside : Inside a := ⟨by omega, by omega⟩
    rw [byteWrites, performAll_cons, perform_write_of_inside hinside, ofInt_toNat,
      Int.toNat_natCast, ← Int.natCast_succ, ih (by omega)]
    rfl

/-- Writes to different addresses can be made in either order. -/
theorem perform_write_comm {a b : Int} (ha : Inside a) (hb : Inside b) (h : a ≠ b) (x y : Int)
    (i : Interpreter) :
    (perform (.write b y) (perform (.write a x) i).state).state =
      (perform (.write a x) (perform (.write b y) i).state).state := by
  have hdistinct : a.toNat ≠ b.toNat := by
    have := ha.1
    have := hb.1
    omega
  simp only [perform_write_of_inside ha, perform_write_of_inside hb]
  exact congrArg i.withMemory (Memory.setByte_comm hdistinct _ _)

/-- The writes of a block that lies in memory can be made in any order. -/
theorem performAll_perm {data : Bytes} (h : ∀ k < data.length, Inside (address + (k : Nat)))
    {order : List Command} (horder : order.Perm (byteWrites address data)) (i : Interpreter) :
    performAll order i = performAll (byteWrites address data) i := by
  refine horder.foldl_eq' (fun c hc d hd j ↦ ?_) i
  obtain ⟨k, hk, rfl⟩ := mem_byteWrites_iff.1 (horder.mem_iff.1 hc)
  obtain ⟨l, hl, rfl⟩ := mem_byteWrites_iff.1 (horder.mem_iff.1 hd)
  by_cases hkl : k = l
  · subst hkl
    rfl
  · exact perform_write_comm (h k hk) (h l hl) (by omega) _ _ j

/-- Questions are answered as they would be each by itself. -/
theorem transcript_of_state_eq {commands : List Command}
    (h : ∀ c ∈ commands, (perform c i).state = i) :
    transcript commands i = commands.map fun c ↦ ((perform c i).result, (perform c i).log) := by
  induction commands with
  | nil => rfl
  | cons c commands ih =>
    obtain ⟨hhead, htail⟩ := List.forall_mem_cons.1 h
    rw [transcript, hhead, ih htail, List.map_cons]

theorem forall_mem_byteReads {count : Nat} {p : Command → Prop} :
    (∀ c ∈ byteReads address count, p c) ↔ ∀ k < count, p (.read (address + (k : Nat))) := by
  simp [byteReads]

theorem forall_mem_byteWrites {data : Bytes} {p : Command → Prop} :
    (∀ c ∈ byteWrites address data, p c) ↔
      ∀ k, ∀ h : k < data.length, p (.write (address + (k : Nat)) data[k].toNat) := by
  constructor
  · intro h k hk
    exact h _ (mem_byteWrites_iff.2 ⟨k, hk, rfl⟩)
  · intro h c hc
    obtain ⟨k, hk, rfl⟩ := mem_byteWrites_iff.1 hc
    exact h k hk

/-- Reading the bytes of a block one after the other gives the block. -/
theorem transcript_byteReads {a count : Nat} (h : ∀ k < count, Inside ((a : Int) + (k : Nat)))
    (i : Interpreter) :
    transcript (byteReads a count) i =
      (i.machine.memory.slice a count).map fun b ↦ (.ok (.byte b), []) := by
  have hstate : ∀ c ∈ byteReads a count, (perform c i).state = i := by
    rw [forall_mem_byteReads]
    intro k hk
    rw [perform_read_of_inside (h k hk)]
  rw [transcript_of_state_eq hstate, byteReads, Memory.slice, List.range'_eq_map_range,
    List.map_map, List.map_map, List.map_map]
  refine List.map_congr_left fun k hk ↦ ?_
  have hinside := h k (List.mem_range.1 hk)
  simp only [Function.comp_apply, perform_read_of_inside hinside]
  rw [← Int.natCast_add, Int.toNat_natCast]

/-- A block that is not empty begins at a natural number if it lies in memory. -/
theorem exists_natCast_of_contains {count : Nat} (hcount : 0 < count)
    (h : Contains address count) : ∃ a : Nat, address = a ∧ a + count ≤ memorySize := by
  obtain hnone | ⟨hbegin, hend⟩ := h
  · omega
  · exact ⟨address.toNat, by omega, by omega⟩

theorem isOk_writeBlock_iff_bytes {data : Bytes} (hdata : data ≠ []) :
    (perform (.writeBlock address data) i).result.isOk ↔
      ∀ c ∈ byteWrites address data, (perform c i).result.isOk := by
  rw [isOk_writeBlock_iff, Memory.contains_iff_inside (List.length_pos_iff.2 hdata),
    forall_mem_byteWrites]
  simp only [isOk_write_iff]

theorem isOk_readBlock_iff_bytes {count : Nat} (hcount : 0 < count) :
    (perform (.readBlock address count) i).result.isOk ↔
      ∀ c ∈ byteReads address count, (perform c i).result.isOk := by
  rw [isOk_readBlock_iff, Memory.contains_iff_inside hcount, forall_mem_byteReads]
  simp only [isOk_read_iff]

/-- A byte outside of a block is read as before the block was written. -/
theorem read_after_writeBlock {data : Bytes} {other : Int}
    (h : other < address ∨ address + data.length ≤ other) :
    (perform (.read other) (perform (.writeBlock address data) i).state).result =
      (perform (.read other) i).result := by
  by_cases hfits : Contains address data.length
  · by_cases hother : Inside other
    · have houtside : other.toNat < address.toNat ∨
          address.toNat + data.length ≤ other.toNat := by
        obtain ⟨hbegin, -⟩ := hother
        obtain hnone | ⟨hbegin', -⟩ := hfits <;> omega
      rw [perform_writeBlock_of_contains hfits, perform_read_of_inside hother,
        perform_read_of_inside hother]
      simp only [memory_withMemory, Memory.byteAt_splice_of_outside houtside]
    · rw [perform_read_of_not_inside hother, perform_read_of_not_inside hother]
  · rw [perform_writeBlock_of_not_contains hfits]

/-- What a block does that is written into memory. -/
theorem writeBlock_as_bytes {data : Bytes} {a : Nat} (h : a + data.length ≤ memorySize)
    (i : Interpreter) :
    let j := (perform (.writeBlock a data) i).state
    (∀ order : List Command, order.Perm (byteWrites a data) →
      transcript order i = order.map (fun _ ↦ (.ok .done, [])) ∧ performAll order i = j) ∧
    perform (.readBlock a data.length) j = ⟨j, .ok (.bytes data), []⟩ := by
  intro j
  have hcontains : Contains (a : Int) data.length := Memory.contains_natCast.2 (.inr h)
  have hinside : ∀ k < data.length, Inside ((a : Int) + (k : Nat)) :=
    fun k hk ↦ ⟨by omega, by omega⟩
  have hj : j = i.withMemory (i.machine.memory.splice a data) := by
    change (perform (.writeBlock a data) i).state = _
    rw [perform_writeBlock_of_contains hcontains, Int.toNat_natCast]
  refine ⟨fun order horder ↦ ⟨transcript_of_always_done ?_ i, ?_⟩, ?_⟩
  · intro c hc k
    obtain ⟨place, hplace, rfl⟩ := mem_byteWrites_iff.1 (horder.mem_iff.1 hc)
    rw [perform_write_of_inside (hinside place hplace)]
    exact ⟨rfl, rfl⟩
  · rw [performAll_perm hinside horder, performAll_byteWrites h, hj]
  · rw [perform_readBlock_of_contains hcontains, hj, Int.toNat_natCast, memory_withMemory,
      Memory.slice_splice hcontains]

/-- A block of memory is read and written as its bytes are, one after the other.  Unless it is
empty, a block can be written if each of its bytes can, and it comes to the same as writing them in
any order; it can be read if each of its bytes can, and the answer is made up of theirs.  What has
been written is read again.  A block without bytes can be read and written everywhere, and nothing
happens.  Whatever is written, memory keeps its size, and a byte outside of the block is read as
before. -/
theorem blocks_agree_with_bytes (i : Interpreter) (address : Int) :
    (∀ data ≠ [],
      ((perform (.writeBlock address data) i).result.isOk ↔
        ∀ c ∈ byteWrites address data, (perform c i).result.isOk) ∧
      ((perform (.writeBlock address data) i).result.isOk →
        let j := (perform (.writeBlock address data) i).state
        (∀ order : List Command, order.Perm (byteWrites address data) →
          transcript order i = order.map (fun _ ↦ (.ok .done, [])) ∧ performAll order i = j) ∧
        perform (.readBlock address data.length) j = ⟨j, .ok (.bytes data), []⟩)) ∧
    (∀ count : Nat, 0 < count →
      ((perform (.readBlock address count) i).result.isOk ↔
        ∀ c ∈ byteReads address count, (perform c i).result.isOk) ∧
      ((perform (.readBlock address count) i).result.isOk →
        ∃ values : Bytes,
          perform (.readBlock address count) i = ⟨i, .ok (.bytes values), []⟩ ∧
          transcript (byteReads address count) i =
            values.map fun b ↦ (.ok (.byte b), []))) ∧
    perform (.writeBlock address []) i = ⟨i, .ok .done, []⟩ ∧
    perform (.readBlock address 0) i = ⟨i, .ok (.bytes []), []⟩ ∧
    ∀ data,
      let j := (perform (.writeBlock address data) i).state
      j.machine.memory.bytes.toList.length = 4096 ∧
      ∀ other, other < address ∨ address + data.length ≤ other →
        (perform (.read other) j).result = (perform (.read other) i).result := by
  refine ⟨fun data hdata ↦ ⟨isOk_writeBlock_iff_bytes hdata, fun hok ↦ ?_⟩,
    fun count hcount ↦ ⟨isOk_readBlock_iff_bytes hcount, fun hok ↦ ?_⟩,
    perform_writeBlock_of_contains (Memory.contains_zero address),
    perform_readBlock_of_contains (Memory.contains_zero address),
    fun data ↦ ⟨Vector.length_toList, fun other ↦ read_after_writeBlock⟩⟩
  · obtain ⟨a, rfl, hfits⟩ :=
      exists_natCast_of_contains (List.length_pos_iff.2 hdata) (isOk_writeBlock_iff.1 hok)
    exact writeBlock_as_bytes hfits i
  · have hcontains := isOk_readBlock_iff.1 hok
    obtain ⟨a, rfl, -⟩ := exists_natCast_of_contains hcount hcontains
    refine ⟨_, perform_readBlock_of_contains hcontains, ?_⟩
    exact transcript_byteReads ((Memory.contains_iff_inside hcount).1 hcontains) i

/-- Three bytes fit at the end of memory, and can be written there in any order. -/
theorem block_at_the_end_of_memory :
    let j := (perform (.writeBlock 4093 [7, 8, 9]) bare).state
    performAll [.write 4095 9, .write 4093 7, .write 4094 8] bare = j ∧
      perform (.readBlock 4093 3) j = ⟨j, .ok (.bytes [7, 8, 9]), []⟩ := by
  obtain ⟨hwrites, -⟩ := blocks_agree_with_bytes bare 4093
  obtain ⟨-, hblock⟩ := hwrites [7, 8, 9] (by decide)
  obtain ⟨horder, hread⟩ := hblock (by decide +kernel)
  have hperm : List.Perm [.write 4095 9, .write 4093 7, .write 4094 8]
      (byteWrites 4093 [7, 8, 9]) := by decide
  exact ⟨(horder _ hperm).2, hread⟩

end Interpreter

end ChipEight
