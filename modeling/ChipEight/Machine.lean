import ChipEight.CallStack
import ChipEight.Keypad
import ChipEight.Memory
import ChipEight.Screen.Sprite
import ChipEight.Word

/-!
# The machine

All that a program can see or change: memory, registers, the call stack, two timers, the screen and
the keypad. The program counter is an integer because a host may put any return address on the
stack; an instruction is fetched from inside memory or not at all.
-/

namespace ChipEight

/-- The state of the machine. -/
structure Machine where
  memory : Memory
  registers : Vector UInt8 registerCount
  index : UInt16
  pc : Int
  stack : CallStack
  delay : UInt8
  sound : UInt8
  screen : Screen
  keypad : Keypad
  /-- The screen has been drawn on since the host last asked. -/
  redraw : Bool
  /-- An instruction is being carried out. -/
  busy : Bool
deriving DecidableEq

namespace Machine

/-- The machine when it is switched on: zeros everywhere, the font not yet in place. -/
def initial : Machine where
  memory := .blank
  registers := Vector.replicate registerCount 0
  index := 0
  pc := startAddress
  stack := .empty
  delay := 0
  sound := 0
  screen := .dark
  keypad := .released
  redraw := false
  busy := false

/-- Everything as in the beginning but for the keypad, which belongs to the host. The dark screen
counts as drawn. -/
def reset (m : Machine) : Machine :=
  { initial with keypad := m.keypad, busy := m.busy, redraw := true }

/-- Places bytes in memory from an address on. -/
def place (m : Machine) (address : Nat) (data : Bytes) : Machine :=
  { m with memory := m.memory.splice address data }

/-- Resets the machine and places font and program in memory. Everything is checked before anything
changes. -/
def load (program font : Bytes) : Action Machine Unit := do
  Action.require ((← Action.gets busy) = false) (.refusal .busy)
  Action.require (font.length = glyphCount * glyphSize) (.refusal (.fontSize font.length))
  Action.require (program.length ≤ maxProgramSize)
    (.ofCause (.programTooLarge program.length maxProgramSize))
  Action.modify reset
  Action.modify (·.place fontAddress font)
  Action.modify (·.place startAddress program)
  Action.note (.programLoaded program.length)

/-- The machine when a program has been loaded. -/
def inserted (m : Machine) (program font : Bytes) : Machine :=
  (m.reset.place fontAddress font).place startAddress program

@[simp] theorem keypad_inserted (m : Machine) (program font : Bytes) :
    (m.inserted program font).keypad = m.keypad := rfl

@[simp] theorem redraw_inserted (m : Machine) (program font : Bytes) :
    (m.inserted program font).redraw = true := rfl

/-- The value of a register. -/
def register (m : Machine) (x : Nibble) : UInt8 := m.registers[x]

/-- Gives a register a value. -/
def setRegister (m : Machine) (x : Nibble) (value : UInt8) : Machine :=
  { m with registers := m.registers.set x value }

/-- The register of carries, borrows and collisions. -/
def flagRegister : Nibble := 0xF

/-- The register that a jump can start from. -/
def jumpRegister : Nibble := 0

/-- Gives a register a value and then the flag register a flag, which stays if they are the same. -/
def setWithFlag (m : Machine) (x : Nibble) (value : UInt8) (flag : Bool) : Machine :=
  (m.setRegister x value).setRegister flagRegister (if flag then 1 else 0)

/-- An address with the bits that the program counter has. -/
def wrapAddress (a : Int) : Int := a % 0x10000

/-- Moves the program counter by `offset`. -/
def moveBy (m : Machine) (offset : Int) : Machine := { m with pc := wrapAddress (m.pc + offset) }

/-- Continues at an address. -/
def jumpTo (m : Machine) (address : Int) : Machine := { m with pc := address }

/-- Points the index register to an address. -/
def pointTo (m : Machine) (address : UInt16) : Machine := { m with index := address }

/-- Passes over the next instruction if a condition holds. -/
def skipIf (m : Machine) (condition : Bool) : Machine := if condition then m.moveBy 2 else m

/-- An action on the memory. -/
def onMemory {α : Type} (x : Action Memory α) : Action Machine α :=
  Action.on memory (fun memory m ↦ { m with memory := memory }) x

/-- An action on the call stack. -/
def onStack {α : Type} (x : Action CallStack α) : Action Machine α :=
  Action.on stack (fun stack m ↦ { m with stack := stack }) x

/-- An action on the screen. -/
def onScreen {α : Type} (x : Action Screen α) : Action Machine α :=
  Action.on screen (fun screen m ↦ { m with screen := screen }) x

/-- An action on the keypad. -/
def onKeypad {α : Type} (x : Action Keypad α) : Action Machine α :=
  Action.on keypad (fun keypad m ↦ { m with keypad := keypad }) x

/-- Reads a byte of memory. -/
def read (address : Int) : Action Machine UInt8 := onMemory (Memory.read address)

/-- Writes a byte of memory; of a larger number the lowest eight bits. -/
def write (address value : Int) : Action Machine Unit :=
  onMemory (Memory.write address (UInt8.ofInt value))

/-- Reads a block of memory. -/
def readBlock (address count : Int) : Action Machine Bytes :=
  onMemory (Memory.readBlock address count)

/-- Writes a block of memory. -/
def writeBlock (address : Int) (data : Bytes) : Action Machine Unit :=
  onMemory (Memory.writeBlock address data)

/-- Reads the instruction word at the program counter and moves behind it. -/
def fetch : Action Machine Word := do
  let high ← read (← Action.gets pc)
  let low ← read ((← Action.gets pc) + 1)
  Action.modify (·.moveBy 2)
  pure (.ofBytes high low)

/-- Puts a return address on the stack. -/
def push (address : Int) : Action Machine Unit := onStack (CallStack.push address)

/-- Takes a return address from the stack. -/
def pop : Action Machine Int := onStack CallStack.pop

/-- Whether a pixel is lit. -/
def pixel (x y : Int) : Action Machine Bool := onScreen (Screen.pixel x y)

/-- The registers from the first one to register `x`. -/
def registersUpTo (m : Machine) (x : Nibble) : Bytes := m.registers.toList.take (x + 1)

/-- Gives values to the first registers. -/
def setRegisters (m : Machine) (values : Bytes) : Machine :=
  { m with registers := m.registers.mapIdx fun i old ↦ values[i]?.getD old }

/-- Moves the index register behind the registers that were stored or loaded. -/
def passRegisters (m : Machine) (x : Nibble) : Machine := m.pointTo (m.index + UInt16.ofNat (x + 1))

/-- Turns every pixel off. -/
def clearScreen (m : Machine) : Machine := { m with screen := .dark, redraw := true }

/-- Draws the sprite of `height` rows at an address; tells whether a lit pixel was turned off. The
whole sprite has to lie in memory, also rows that would not show. -/
def drawSprite (x y : Int) (height : Nat) (address : Int) : Action Machine Bool := do
  let sprite ← readBlock address height
  let collision ← onScreen (Screen.blit sprite x y)
  Action.modify fun m ↦ { m with redraw := true }
  pure collision

theorem read_of_inside (m : Machine) {address : Int} (h : 0 ≤ address ∧ address < memorySize) :
    read address m = ⟨m, .ok (m.memory.byteAt address.toNat), []⟩ := by
  rw [read, onMemory, Action.on_apply, Memory.read_of_inside _ h]

theorem read_of_outside (m : Machine) {address : Int} (h : ¬ (0 ≤ address ∧ address < memorySize)) :
    read address m = ⟨m, .error (.ofCause (.outOfBounds .memory address)), []⟩ := by
  rw [read, onMemory, Action.on_apply, Memory.read_of_outside _ h]

theorem write_of_inside (m : Machine) {address : Int} (value : Int)
    (h : 0 ≤ address ∧ address < memorySize) :
    write address value m =
      ⟨{ m with memory := m.memory.setByte address.toNat (UInt8.ofInt value) }, .ok (), []⟩ := by
  rw [write, onMemory, Action.on_apply, Memory.write_of_inside _ _ h]

theorem write_of_outside (m : Machine) {address : Int} (value : Int)
    (h : ¬ (0 ≤ address ∧ address < memorySize)) :
    write address value m = ⟨m, .error (.ofCause (.outOfBounds .memory address)), []⟩ := by
  rw [write, onMemory, Action.on_apply, Memory.write_of_outside _ _ h]

theorem pixel_of_inside (m : Machine) {x y : Int}
    (h : 0 ≤ x ∧ x < screenWidth ∧ 0 ≤ y ∧ y < screenHeight) :
    pixel x y m = ⟨m, .ok (m.screen.isLit x.toNat y.toNat), []⟩ := by
  rw [pixel, onScreen, Action.on_apply, Screen.pixel_of_inside _ h]

theorem pixel_of_outside (m : Machine) {x y : Int}
    (h : ¬ (0 ≤ x ∧ x < screenWidth ∧ 0 ≤ y ∧ y < screenHeight)) :
    pixel x y m = ⟨m, .error (.ofCause (.outOfBounds .pixel (y * screenWidth + x))), []⟩ := by
  rw [pixel, onScreen, Action.on_apply, Screen.pixel_of_outside _ h]

theorem readBlock_of_contains (m : Machine) {address count : Int}
    (h : Memory.Contains address count) :
    readBlock address count m =
      ⟨m, .ok (m.memory.slice address.toNat (Memory.span address count)), []⟩ := by
  rw [readBlock, onMemory, Action.on_apply, Memory.readBlock_of_contains _ h]

theorem readBlock_of_not_contains (m : Machine) {address count : Int}
    (h : ¬ Memory.Contains address count) :
    readBlock address count m =
      ⟨m, .error (.ofCause (.outOfBounds .memory (address + count - 1))), []⟩ := by
  rw [readBlock, onMemory, Action.on_apply, Memory.readBlock_of_not_contains _ h]

theorem writeBlock_of_contains (m : Machine) {address : Int} {data : Bytes}
    (h : Memory.Contains address data.length) :
    writeBlock address data m = ⟨m.place address.toNat data, .ok (), []⟩ := by
  rw [writeBlock, onMemory, Action.on_apply, Memory.writeBlock_of_contains _ h]
  rfl

theorem writeBlock_of_not_contains (m : Machine) {address : Int} {data : Bytes}
    (h : ¬ Memory.Contains address data.length) :
    writeBlock address data m =
      ⟨m, .error (.ofCause (.outOfBounds .memory (address + data.length - 1))), []⟩ := by
  rw [writeBlock, onMemory, Action.on_apply, Memory.writeBlock_of_not_contains _ h]

theorem drawSprite_of_contains (m : Machine) {x y : Int} {height : Nat} {address : Int}
    (h : Memory.Contains address height) :
    drawSprite x y height address m =
      ⟨{ m with
          screen := (m.screen.draw (m.memory.slice address.toNat height) x y).1
          redraw := true },
        .ok (m.screen.draw (m.memory.slice address.toNat height) x y).2, []⟩ := by
  have hread := m.readBlock_of_contains h
  rw [Memory.span_natCast] at hread
  rw [drawSprite, Action.bind_of_ok (congrArg Outcome.result hread), hread]
  rfl

theorem drawSprite_of_not_contains (m : Machine) {x y : Int} {height : Nat} {address : Int}
    (h : ¬ Memory.Contains address height) :
    drawSprite x y height address m =
      ⟨m, .error (.ofCause (.outOfBounds .memory (address + height - 1))), []⟩ := by
  have hread := m.readBlock_of_not_contains h
  rw [drawSprite, Action.bind_of_error (congrArg Outcome.result hread), hread]

/-- A load that is accepted starts the machine afresh. -/
theorem load_of_accepted {m : Machine} {program font : Bytes} (idle : m.busy = false)
    (hfont : font.length = glyphCount * glyphSize) (hprogram : program.length ≤ maxProgramSize) :
    load program font m =
      ⟨m.inserted program font, .ok (), [.programLoaded program.length]⟩ := by
  rw [load, Action.gets_bind, Action.require_bind_of_pos idle, Action.require_bind_of_pos hfont,
    Action.require_bind_of_pos hprogram]
  rfl

theorem load_of_busy {m : Machine} (program font : Bytes) (h : m.busy = true) :
    load program font m = ⟨m, .error (.refusal .busy), []⟩ := by
  rw [load, Action.gets_bind, Action.require_bind_of_neg (by simp [h])]

theorem load_of_font {m : Machine} (program : Bytes) {font : Bytes} (idle : m.busy = false)
    (h : font.length ≠ glyphCount * glyphSize) :
    load program font m = ⟨m, .error (.refusal (.fontSize font.length)), []⟩ := by
  rw [load, Action.gets_bind, Action.require_bind_of_pos idle, Action.require_bind_of_neg h]

theorem load_of_too_large {m : Machine} {program font : Bytes} (idle : m.busy = false)
    (hfont : font.length = glyphCount * glyphSize) (h : maxProgramSize < program.length) :
    load program font m =
      ⟨m, .error (.ofCause (.programTooLarge program.length maxProgramSize)), []⟩ := by
  rw [load, Action.gets_bind, Action.require_bind_of_pos idle, Action.require_bind_of_pos hfont,
    Action.require_bind_of_neg (Nat.not_le.2 h)]

/-- Machines that are both busy or both at rest refuse a load for the same reason, which changes
neither of them, or both accept it. -/
theorem load_both {m n : Machine} (h : n.busy = m.busy) (program font : Bytes) :
    (∃ e, load program font m = ⟨m, .error e, []⟩ ∧ load program font n = ⟨n, .error e, []⟩) ∨
      (load program font m = ⟨m.inserted program font, .ok (), [.programLoaded program.length]⟩ ∧
        load program font n =
          ⟨n.inserted program font, .ok (), [.programLoaded program.length]⟩) := by
  cases hbusy : m.busy with
  | true =>
    exact .inl ⟨_, load_of_busy program font hbusy, load_of_busy program font (h.trans hbusy)⟩
  | false =>
    have hother := h.trans hbusy
    by_cases hfont : font.length = glyphCount * glyphSize
    · by_cases hprogram : program.length ≤ maxProgramSize
      · exact .inr ⟨load_of_accepted hbusy hfont hprogram, load_of_accepted hother hfont hprogram⟩
      · have hlarge := Nat.lt_of_not_le hprogram
        exact .inl ⟨_, load_of_too_large hbusy hfont hlarge, load_of_too_large hother hfont hlarge⟩
    · exact .inl ⟨_, load_of_font program hbusy hfont, load_of_font program hother hfont⟩

/-- A load is refused and changes nothing, or it is accepted. -/
theorem load_cases (m : Machine) (program font : Bytes) :
    (∃ e, load program font m = ⟨m, .error e, []⟩) ∨
      load program font m =
        ⟨m.inserted program font, .ok (), [.programLoaded program.length]⟩ := by
  obtain ⟨e, hm, -⟩ | ⟨hm, -⟩ := load_both (m := m) rfl program font
  · exact .inl ⟨e, hm⟩
  · exact .inr hm

@[simp] theorem length_registersUpTo (m : Machine) (x : Nibble) :
    (m.registersUpTo x).length = x + 1 := by
  simp only [registersUpTo, List.length_take, Vector.length_toList, registerCount]
  omega

/-- One less, but never less than zero. -/
def countDownFrom (timer : UInt8) : UInt8 := if timer = 0 then 0 else timer - 1

/-- Both timers count down by one. -/
def countDown (m : Machine) : Machine :=
  { m with delay := countDownFrom m.delay, sound := countDownFrom m.sound }

/-- A tone is to be heard. -/
def soundActive (m : Machine) : Bool := m.sound > 0

/-- A timer counts down to zero. -/
@[simp] theorem toNat_countDownFrom (timer : UInt8) :
    (countDownFrom timer).toNat = timer.toNat - 1 := by
  have h := timer.toNat_lt
  unfold countDownFrom
  split
  · simp_all
  · rename_i h0
    have : timer.toNat ≠ 0 := fun e ↦ h0 (UInt8.toNat_inj.1 e)
    rw [UInt8.toNat_sub_of_le] <;> simp [UInt8.le_iff_toNat_le]; omega

end Machine

end ChipEight
