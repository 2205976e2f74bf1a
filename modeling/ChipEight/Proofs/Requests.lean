import ChipEight.Proofs.Atomic
import ChipEight.Proofs.Halting
import ChipEight.Proofs.Stack

/-!
# Requests are all or nothing

A host asks the machine for a byte, a block, a word, a pixel, a key or a load, and each of these
requests is granted or refused on the spot.  `Machine.Denies` lists what can stand in the way of
what a request demands, and there is nothing else.  A request that is refused leaves nothing behind,
so that such requests can be struck out of the record of a run: what is left is the record of a run
in which they were never made, and both runs end alike.
-/

namespace ChipEight

/-- What a request needs of the parts of the machine. -/
inductive Resource where
  /-- An address in memory. -/
  | byte (address : Int)
  /-- A block that lies in memory. -/
  | block (address count : Int)
  /-- A slot of the call stack that is not in use. -/
  | freeSlot
  /-- A call that is open. -/
  | openCall
  | pixel (x y : Int)
  /-- The word at the program counter. -/
  | word
  | key (number : Int)

/-- What a request demands of the machine. -/
inductive Demand where
  /-- To put a program and a font in place of what is there. -/
  | load (program font : Bytes)
  /-- To have as many states as there are keys. -/
  | keyStates (count : Nat)
  | resource (resource : Resource)

/-- What a command demands of the machine, if it is a request: it reads or changes the machine on
the spot, with no instruction carried out and no time spent, and may be refused. -/
def Command.demand? : Command → Option Demand
  | .load program font | .loadMachine program font => some (.load program font)
  | .read address | .write address _ => some (.resource (.byte address))
  | .readBlock address count => some (.resource (.block address count))
  | .writeBlock address data => some (.resource (.block address data.length))
  | .drawSprite _ _ height address => some (.resource (.block address height))
  | .push _ => some (.resource .freeSlot)
  | .pop => some (.resource .openCall)
  | .pixel x y => some (.resource (.pixel x y))
  | .fetch => some (.resource .word)
  | .setKey key _ | .isPressed key => some (.resource (.key key))
  | .setKeys states => some (.keyStates states.length)
  | _ => none

/-! ## What a machine denies -/

namespace Machine

/-- A machine lacks what is needed of its parts, for a cause. -/
inductive Lacks (m : Machine) : Resource → Cause → Prop
  | byte {address : Int} :
      address < 0 ∨ 4096 ≤ address → Lacks m (.byte address) (.outOfBounds .memory address)
  /-- A block that is not empty sticks out of memory. -/
  | block {address count : Int} :
      count ≠ 0 → address < 0 ∨ 4096 < address + count →
      Lacks m (.block address count) (.outOfBounds .memory (address + count - 1))
  | freeSlot : m.stack.depth = 128 → Lacks m .freeSlot CallStack.overflow
  | openCall : m.stack.depth = 0 → Lacks m .openCall CallStack.underflow
  | pixel {x y : Int} :
      x < 0 ∨ 64 ≤ x ∨ y < 0 ∨ 32 ≤ y →
      Lacks m (.pixel x y) (.outOfBounds .pixel (y * 64 + x))
  /-- The program counter is outside of memory. -/
  | outside : m.pc < 0 ∨ 4096 ≤ m.pc → Lacks m .word (.outOfBounds .memory m.pc)
  /-- The word begins with the last byte of memory. -/
  | straddling : m.pc = 4095 → Lacks m .word (.outOfBounds .memory 4096)
  | key {number : Int} :
      number < 0 ∨ 16 ≤ number → Lacks m (.key number) (.outOfBounds .key number)

/-- Why a machine denies what is demanded of it. -/
inductive Denies (m : Machine) : Demand → Error → Prop
  /-- An instruction is being carried out. -/
  | busy {program font : Bytes} :
      m.busy = true → Denies m (.load program font) (.refusal .busy)
  /-- The font has not the size of sixteen glyphs. -/
  | font {program font : Bytes} :
      m.busy = false → font.length ≠ 80 →
      Denies m (.load program font) (.refusal (.fontSize font.length))
  /-- The program does not fit behind the start address. -/
  | program {program font : Bytes} :
      m.busy = false → font.length = 80 → 3584 < program.length →
      Denies m (.load program font) (.ofCause (.programTooLarge program.length 3584))
  | keyStates {count : Nat} :
      count ≠ 16 → Denies m (.keyStates count) (.refusal (.keyStates count))
  | lacks {resource : Resource} {cause : Cause} :
      m.Lacks resource cause → Denies m (.resource resource) (.ofCause cause)

variable {m : Machine} {e : Error} {cause : Cause}

theorem denies_resource_iff {resource : Resource} :
    m.Denies (.resource resource) e ↔ ∃ cause, m.Lacks resource cause ∧ .ofCause cause = e := by
  constructor
  · rintro (_ | _ | _ | _ | h)
    exact ⟨_, h, rfl⟩
  · rintro ⟨_, h, rfl⟩
    exact .lacks h

theorem load_eq_error_iff {program font : Bytes} :
    (load program font m).result = .error e ↔ m.Denies (.load program font) e := by
  constructor
  · intro h
    cases hbusy : m.busy with
    | true =>
      rw [load_of_busy program font hbusy] at h
      cases h
      exact .busy hbusy
    | false =>
      by_cases hfont : font.length = glyphCount * glyphSize
      · by_cases hprogram : program.length ≤ maxProgramSize
        · rw [load_of_accepted hbusy hfont hprogram] at h
          cases h
        · have hlarge := Nat.lt_of_not_le hprogram
          rw [load_of_too_large hbusy hfont hlarge] at h
          cases h
          exact .program hbusy hfont hlarge
      · rw [load_of_font program hbusy hfont] at h
        cases h
        exact .font hbusy hfont
  · intro h
    cases h with
    | busy hbusy => rw [load_of_busy program font hbusy]
    | font idle hfont => rw [load_of_font program idle hfont]
    | program idle hfont hprogram =>
      rw [load_of_too_large idle hfont hprogram]
      rfl

theorem setKeys_eq_error_iff {states : List Bool} :
    (onKeypad (Keypad.setAll states) m).result = .error e ↔
      m.Denies (.keyStates states.length) e := by
  rw [onKeypad, Action.on_apply]
  constructor
  · intro h
    by_cases hcount : states.length = keyCount
    · rw [m.keypad.setAll_of_length_eq hcount] at h
      cases h
    · rw [m.keypad.setAll_of_length_ne hcount] at h
      cases h
      exact .keyStates hcount
  · intro h
    cases h with
    | keyStates hcount => rw [m.keypad.setAll_of_length_ne hcount]

/-! ## What a machine lacks -/

theorem lacks_byte_iff {address : Int} :
    m.Lacks (.byte address) cause ↔
      ¬ (0 ≤ address ∧ address < memorySize) ∧ .outOfBounds .memory address = cause := by
  simp only [memorySize]
  constructor
  · intro h
    cases h with
    | byte hout => exact ⟨by omega, rfl⟩
  · rintro ⟨hout, rfl⟩
    exact .byte (by omega)

/-- Only a block that is not empty has to lie in memory. -/
theorem lacks_block_iff {address count : Int} :
    m.Lacks (.block address count) cause ↔
      ¬ Memory.Contains address count ∧ .outOfBounds .memory (address + count - 1) = cause := by
  simp only [Memory.Contains, memorySize]
  constructor
  · intro h
    cases h with
    | block hcount hout => exact ⟨by omega, rfl⟩
  · rintro ⟨hout, rfl⟩
    exact .block (by omega) (by omega)

theorem lacks_freeSlot_iff :
    m.Lacks .freeSlot cause ↔ ¬ m.stack.depth < stackSize ∧ CallStack.overflow = cause := by
  have := m.stack.depth_le
  simp only [stackSize] at this ⊢
  constructor
  · intro h
    cases h with
    | freeSlot hfull => exact ⟨by omega, rfl⟩
  · rintro ⟨hfull, rfl⟩
    exact .freeSlot (by omega)

theorem lacks_openCall_iff :
    m.Lacks .openCall cause ↔ ¬ 0 < m.stack.depth ∧ CallStack.underflow = cause := by
  constructor
  · intro h
    cases h with
    | openCall hempty => exact ⟨by omega, rfl⟩
  · rintro ⟨hempty, rfl⟩
    exact .openCall (by omega)

theorem lacks_pixel_iff {x y : Int} :
    m.Lacks (.pixel x y) cause ↔
      ¬ (0 ≤ x ∧ x < screenWidth ∧ 0 ≤ y ∧ y < screenHeight) ∧
        .outOfBounds .pixel (y * screenWidth + x) = cause := by
  simp only [screenWidth, screenHeight]
  constructor
  · intro h
    cases h with
    | pixel hout => exact ⟨by omega, rfl⟩
  · rintro ⟨hout, rfl⟩
    exact .pixel (by omega)

theorem lacks_key_iff {key : Int} :
    m.Lacks (.key key) cause ↔ ¬ (0 ≤ key ∧ key < keyCount) ∧ .outOfBounds .key key = cause := by
  simp only [keyCount]
  constructor
  · intro h
    cases h with
    | key hout => exact ⟨by omega, rfl⟩
  · rintro ⟨hout, rfl⟩
    exact .key (by omega)

section Resources

variable {α : Type} {x : Action Machine α} {resource : Resource} {p : Prop} {c : Cause}

/-- What is granted under a condition, and refused for one cause without it, is refused exactly if
the machine lacks it. -/
theorem eq_error_iff_of_lacks (hlacks : ∀ cause, m.Lacks resource cause ↔ ¬ p ∧ c = cause)
    (hgranted : p → ∃ a, (x m).result = .ok a)
    (hrefused : ¬ p → (x m).result = .error (.ofCause c)) :
    (x m).result = .error e ↔ m.Denies (.resource resource) e := by
  simp only [denies_resource_iff, hlacks]
  constructor
  · intro he
    have hp : ¬ p := by
      intro hp
      obtain ⟨a, ha⟩ := hgranted hp
      cases ha.symm.trans he
    rw [hrefused hp] at he
    exact ⟨c, ⟨hp, rfl⟩, Except.error.inj he⟩
  · rintro ⟨_, ⟨hp, rfl⟩, rfl⟩
    exact hrefused hp

end Resources

theorem read_eq_error_iff {address : Int} :
    (read address m).result = .error e ↔ m.Denies (.resource (.byte address)) e :=
  eq_error_iff_of_lacks (fun _ ↦ lacks_byte_iff) (fun h ↦ ⟨_, by rw [read_of_inside m h]⟩)
    fun h ↦ by rw [read_of_outside m h]

/-- A byte can be written where one can be read. -/
theorem write_eq_error_iff {address value : Int} :
    (write address value m).result = .error e ↔ m.Denies (.resource (.byte address)) e :=
  eq_error_iff_of_lacks (fun _ ↦ lacks_byte_iff) (fun h ↦ ⟨_, by rw [write_of_inside m value h]⟩)
    fun h ↦ by rw [write_of_outside m value h]

theorem readBlock_eq_error_iff {address count : Int} :
    (readBlock address count m).result = .error e ↔
      m.Denies (.resource (.block address count)) e :=
  eq_error_iff_of_lacks (fun _ ↦ lacks_block_iff)
    (fun h ↦ ⟨_, by rw [readBlock_of_contains m h]⟩) fun h ↦ by rw [readBlock_of_not_contains m h]

theorem writeBlock_eq_error_iff {address : Int} {data : Bytes} :
    (writeBlock address data m).result = .error e ↔
      m.Denies (.resource (.block address data.length)) e :=
  eq_error_iff_of_lacks (fun _ ↦ lacks_block_iff)
    (fun h ↦ ⟨_, by rw [writeBlock_of_contains m h]⟩) fun h ↦ by rw [writeBlock_of_not_contains m h]

/-- The rows of a sprite have to lie in memory, wherever it is drawn. -/
theorem drawSprite_eq_error_iff {x y : Int} {height : Nat} {address : Int} :
    (drawSprite x y height address m).result = .error e ↔
      m.Denies (.resource (.block address height)) e :=
  eq_error_iff_of_lacks (fun _ ↦ lacks_block_iff)
    (fun h ↦ ⟨_, by rw [drawSprite_of_contains m h]⟩) fun h ↦ by rw [drawSprite_of_not_contains m h]

theorem push_eq_error_iff {address : Int} :
    (push address m).result = .error e ↔ m.Denies (.resource .freeSlot) e := by
  refine eq_error_iff_of_lacks (fun _ ↦ lacks_freeSlot_iff) (fun h ↦ ⟨(), ?_⟩) fun h ↦ ?_
  · rw [push_of_opened (CallStack.opened_of_lt h address)]
  · have := m.stack.depth_le
    rw [push_of_not_opened (CallStack.opened_eq_error_iff.2 ⟨by omega, rfl⟩)]

theorem pop_eq_error_iff : (pop m).result = .error e ↔ m.Denies (.resource .openCall) e := by
  refine eq_error_iff_of_lacks (fun _ ↦ lacks_openCall_iff) (fun h ↦ ?_) fun h ↦ ?_
  · exact ⟨_, congrArg Outcome.result (pop_of_closed (CallStack.closed_of_pos h))⟩
  · rw [pop_of_not_closed (CallStack.closed_eq_error_iff.2 ⟨by omega, rfl⟩)]

theorem pixel_eq_error_iff {x y : Int} :
    (pixel x y m).result = .error e ↔ m.Denies (.resource (.pixel x y)) e :=
  eq_error_iff_of_lacks (fun _ ↦ lacks_pixel_iff) (fun h ↦ ⟨_, by rw [pixel_of_inside m h]⟩)
    fun h ↦ by rw [pixel_of_outside m h]

theorem isPressed_eq_error_iff {key : Int} :
    (onKeypad (Keypad.isPressed key) m).result = .error e ↔ m.Denies (.resource (.key key)) e :=
  eq_error_iff_of_lacks (fun _ ↦ lacks_key_iff)
    (fun h ↦ ⟨_, congrArg Outcome.result (m.keypad.isPressed_of_inside h)⟩)
    fun h ↦ congrArg Outcome.result (m.keypad.isPressed_of_outside h)

/-- A key can be set where one can be asked for. -/
theorem setKey_eq_error_iff {key : Int} {down : Bool} :
    (onKeypad (Keypad.set key down) m).result = .error e ↔ m.Denies (.resource (.key key)) e :=
  eq_error_iff_of_lacks (fun _ ↦ lacks_key_iff)
    (fun h ↦ ⟨_, congrArg Outcome.result (m.keypad.set_of_inside down h)⟩)
    fun h ↦ congrArg Outcome.result (m.keypad.set_of_outside down h)

/-- A word can be fetched unless its first byte lies outside of memory or its second one does. -/
theorem fetch_eq_error_iff : (fetch m).result = .error e ↔ m.Denies (.resource .word) e := by
  rw [denies_resource_iff]
  constructor
  · intro h
    by_cases hw : m.HasWord
    · rw [fetch_of_hasWord hw] at h
      cases h
    · obtain ho | hs := not_hasWord_iff.1 hw
      · rw [fetch_of_outside ho] at h
        exact ⟨_, .outside ho, Except.error.inj h⟩
      · rw [fetch_of_straddling hs] at h
        exact ⟨_, .straddling (by simp only [memorySize] at hs; omega), Except.error.inj h⟩
  · rintro ⟨_, h, rfl⟩
    cases h with
    | outside ho => rw [fetch_of_outside ho]
    | straddling hs =>
      rw [fetch_of_straddling (by simp only [memorySize]; omega)]
      rfl

end Machine

namespace Interpreter

variable {i : Interpreter} {e : Error}

/-! ## Requests that are refused -/

/-- An answer put into another form is an error where it was one before. -/
theorem map_eq_error_iff {α β : Type} {f : α → β} {result : Except Error α} :
    result.map f = .error e ↔ result = .error e := by
  cases result with
  | error d => simp [Except.map]
  | ok a => simp [Except.map]

theorem ask_eq_error_iff {α : Type} {reply : α → Reply} {x : Action Machine α} {demand : Demand}
    (h : (x i.machine).result = .error e ↔ i.machine.Denies demand e) :
    (ask reply x i).result = .error e ↔ i.machine.Denies demand e := by
  rw [ask_apply, map_eq_error_iff, h]

theorem loadMachine_eq_error_iff {program font : Bytes} :
    (loadMachine program font i).result = .error e ↔
      i.machine.Denies (.load program font) e := Machine.load_eq_error_iff

/-- What follows when the machine has accepted the program cannot fail. -/
theorem load_eq_error_iff {program font : Bytes} :
    (load program font i).result = .error e ↔ i.machine.Denies (.load program font) e := by
  rw [← loadMachine_eq_error_iff]
  cases hr : (loadMachine program font i).result with
  | error d => rw [load, Action.bind_of_error hr]
  | ok a =>
    rw [load, Action.bind_of_ok hr]
    simp

/-- A request is refused if the machine denies what it demands, and for no other reason. -/
theorem perform_eq_error_iff_denies {c : Command} {demand : Demand} (hc : c.demand? = some demand) :
    (perform c i).result = .error e ↔ i.machine.Denies demand e := by
  cases c with
  | load program font =>
    cases hc
    rw [perform, Action.result_map, map_eq_error_iff, load_eq_error_iff]
  | loadMachine program font =>
    cases hc
    rw [perform, Action.result_map, map_eq_error_iff, loadMachine_eq_error_iff]
  | read address =>
    cases hc
    exact ask_eq_error_iff Machine.read_eq_error_iff
  | write address value =>
    cases hc
    exact ask_eq_error_iff Machine.write_eq_error_iff
  | readBlock address count =>
    cases hc
    exact ask_eq_error_iff Machine.readBlock_eq_error_iff
  | writeBlock address data =>
    cases hc
    exact ask_eq_error_iff Machine.writeBlock_eq_error_iff
  | push address =>
    cases hc
    exact ask_eq_error_iff Machine.push_eq_error_iff
  | pop =>
    cases hc
    exact ask_eq_error_iff Machine.pop_eq_error_iff
  | pixel x y =>
    cases hc
    exact ask_eq_error_iff Machine.pixel_eq_error_iff
  | fetch =>
    cases hc
    exact ask_eq_error_iff Machine.fetch_eq_error_iff
  | drawSprite x y height address =>
    cases hc
    exact ask_eq_error_iff Machine.drawSprite_eq_error_iff
  | setKey key down =>
    cases hc
    exact ask_eq_error_iff Machine.setKey_eq_error_iff
  | isPressed key =>
    cases hc
    exact ask_eq_error_iff Machine.isPressed_eq_error_iff
  | setKeys states =>
    cases hc
    exact ask_eq_error_iff Machine.setKeys_eq_error_iff
  | _ => cases hc

/-- A request that is refused leaves nothing behind. -/
theorem atomic_perform {c : Command} (hc : c.demand?.isSome) : Action.Atomic (perform c) := by
  cases c with
  | load program font => exact (atomic_load program font).map _
  | loadMachine program font => exact (atomic_loadMachine program font).map _
  | read address => exact atomic_ask _ (.of_observes (Machine.observes_read address))
  | write address value => exact atomic_ask _ (Machine.atomic_write address value)
  | readBlock address count =>
    exact atomic_ask _ (.of_observes (Machine.observes_readBlock address count))
  | writeBlock address data => exact atomic_ask _ (Machine.atomic_writeBlock address data)
  | push address => exact atomic_ask _ (Machine.atomic_push address)
  | pop => exact atomic_ask _ Machine.atomic_pop
  | pixel x y => exact atomic_ask _ (Machine.atomic_pixel x y)
  | fetch => exact atomic_ask _ Machine.atomic_fetch
  | drawSprite x y height address =>
    exact atomic_ask _ (Machine.atomic_drawSprite x y height address)
  | setKey key down => exact atomic_askKeypad _ (Keypad.atomic_set key down)
  | isPressed key => exact atomic_askKeypad _ (Keypad.atomic_isPressed key)
  | setKeys states => exact atomic_askKeypad _ (Keypad.atomic_setAll states)
  | _ => cases hc

/-! ## The record of a run -/

/-- The commands of a run, each with its answer and the notes that are written on the way. -/
def record (commands : List Command) (i : Interpreter) :
    List (Command × Except Error Reply × List Note) :=
  commands.zip (transcript commands i)

@[simp] theorem record_nil (i : Interpreter) : record [] i = [] := rfl

@[simp] theorem record_cons (c : Command) (commands : List Command) (i : Interpreter) :
    record (c :: commands) i =
      (c, (perform c i).result, (perform c i).log) :: record commands (perform c i).state := rfl

/-- An entry of a record that tells of a request which was refused. -/
def isRefusal (entry : Command × Except Error Reply × List Note) : Bool :=
  entry.1.demand?.isSome && !entry.2.1.isOk

/-- The record of a run with the refused requests struck out. -/
def granted (commands : List Command) (i : Interpreter) :
    List (Command × Except Error Reply × List Note) :=
  (record commands i).filter (!isRefusal ·)

/-- With a refused request struck out a run goes on from where it was before. -/
theorem granted_cons_of_refused {c : Command} (hc : c.demand?.isSome)
    (h : (perform c i).result = .error e) (commands : List Command) :
    granted (c :: commands) i = granted commands i := by
  rw [granted, record_cons, atomic_perform hc i e h]
  exact List.filter_cons_of_neg (by simp [isRefusal, hc, Except.isOk, Except.toBool])

theorem granted_cons_of_not_refusal {c : Command} (commands : List Command)
    (h : isRefusal (c, (perform c i).result, (perform c i).log) = false) :
    granted (c :: commands) i =
      (c, (perform c i).result, (perform c i).log) :: granted commands (perform c i).state := by
  rw [granted, record_cons]
  exact List.filter_cons_of_pos (by simp [h])

theorem isRefusal_iff {c : Command} {result : Except Error Reply} {log : List Note} :
    isRefusal (c, result, log) ↔ c.demand?.isSome ∧ ∃ e, result = .error e := by
  cases result with
  | error e => simp [isRefusal, Except.isOk, Except.toBool]
  | ok r => simp [isRefusal, Except.isOk, Except.toBool]

/-- The run of what was not refused has the record of what was not refused, and ends alike. -/
theorem run_granted (commands : List Command) (i : Interpreter) :
    record ((granted commands i).map Prod.fst) i = granted commands i ∧
      performAll ((granted commands i).map Prod.fst) i = performAll commands i := by
  induction commands generalizing i with
  | nil => exact ⟨rfl, rfl⟩
  | cons c commands ih =>
    cases hrefusal : isRefusal (c, (perform c i).result, (perform c i).log) with
    | true =>
      obtain ⟨hc, e, he⟩ := isRefusal_iff.1 hrefusal
      rw [granted_cons_of_refused hc he, performAll_cons, atomic_perform hc i e he]
      exact ih i
    | false =>
      rw [granted_cons_of_not_refusal commands hrefusal, List.map_cons, record_cons,
        performAll_cons, performAll_cons, (ih _).1, (ih _).2]
      exact ⟨rfl, rfl⟩

/-- Requests are all or nothing.  A request is refused exactly if the machine denies what it
demands, for that reason, and then nothing has changed: not the machine with its keypad, the
processor or the clocks, and not whether a program is loaded.  Hence in any run the requests that
are refused can be left out: every other command is answered as before, with the same notes, and the
run ends in the same state. -/
theorem requests_are_all_or_nothing (i : Interpreter) :
    (∀ c demand, c.demand? = some demand → ∀ e,
      ((perform c i).result = .error e ↔ i.machine.Denies demand e) ∧
      ((perform c i).result = .error e → perform c i = ⟨i, .error e, []⟩)) ∧
    ∀ commands,
      let kept := (granted commands i).map Prod.fst
      record kept i = granted commands i ∧ performAll kept i = performAll commands i := by
  refine ⟨fun c demand hc e ↦ ⟨perform_eq_error_iff_denies hc, atomic_perform ?_ i e⟩,
    fun commands ↦ run_granted commands i⟩
  rw [hc]
  rfl

/-- Commands at the ends of memory and screen, four of which ask for too much. -/
def edgeCommands : List Command :=
  [.setKeys [true], .assign (.pc 4095), .fetch, .writeBlock 4094 [1, 2, 3], .write 4095 7,
    .pixel 64 0, .read 4095]

/-- A run in which four requests are refused is the run of the other three commands. -/
theorem requests_at_the_edges :
    let kept : List Command := [.assign (.pc 4095), .write 4095 7, .read 4095]
    perform (.setKeys [true]) bare = ⟨bare, .error (.refusal (.keyStates 1)), []⟩ ∧
      record kept bare = granted edgeCommands bare ∧
      performAll kept bare = performAll edgeCommands bare := by
  intro kept
  obtain ⟨hrequest, hrun⟩ := requests_are_all_or_nothing bare
  have hkept : (granted edgeCommands bare).map Prod.fst =
      [.assign (.pc 4095), .write 4095 7, .read 4095] := by
    decide +kernel
  obtain ⟨hrefused, hnothing⟩ := hrequest (.setKeys [true]) _ rfl (.refusal (.keyStates 1))
  refine ⟨hnothing (hrefused.2 (.keyStates (by decide))), ?_⟩
  have := hrun edgeCommands
  rwa [hkept] at this

end Interpreter

end ChipEight
