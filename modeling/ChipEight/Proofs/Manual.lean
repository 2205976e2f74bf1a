import ChipEight.Opcode
import ChipEight.Proofs.View

/-!
# The manual

What the instruction set is meant to be, said of the machine in numbers and without the processor
that carries it out.  `Manual.after` is the table of the instructions, one row for each; every
operand in it is read from the view before the instruction.  `Manual.Obstacle` lists what keeps an
instruction from being carried out.
-/

namespace ChipEight

namespace View

/-- The view behind the next instruction if a condition holds, else behind this one. -/
def skipIf (v : View) (condition : Prop) [Decidable condition] : View :=
  { v with pc := if condition then v.pc + 4 else v.pc + 2 }

/-- The view with a result, of which eight bits count, and then a flag.  The flag stays if both are
for the same register. -/
def putFlagged (v : View) (x : Nibble) (result : Nat) (flag : Prop) [Decidable flag] : View :=
  (v.put x (result % 256)).put Machine.flagRegister (if flag then 1 else 0)

end View

namespace Manual

/-- The machine in numbers after an instruction, given the random byte that it may ask for.  With
`legacyStore`, storing and loading registers moves the index register. -/
def after (legacyStore : Bool) (i : Instruction) (byte : UInt8) (v : View) : View :=
  let w := i.word
  let vx := v.registers w.x
  let vy := v.registers w.y
  let v := { v with busy := false }
  let next := { v with pc := v.pc + 2 }
  let passed := if legacyStore then (v.index + (w.x.val + 1)) % 65536 else v.index
  match i.op with
  | .clearScreen => { next with lit := fun _ _ ↦ false, redraw := true }
  | .ret => { v with pc := v.slots (v.depth - 1), depth := v.depth - 1 }
  | .jump => { v with pc := w.nnn }
  | .call => { v with
      pc := w.nnn
      slots := fun k ↦ if k = v.depth then v.pc + 2 else v.slots k
      depth := v.depth + 1 }
  | .skipIfByte => v.skipIf (vx = w.nn.toNat)
  | .skipUnlessByte => v.skipIf (vx ≠ w.nn.toNat)
  | .skipIfEqual => v.skipIf (vx = vy)
  | .skipUnlessEqual => v.skipIf (vx ≠ vy)
  | .setByte => next.put w.x w.nn.toNat
  | .addByte => next.put w.x ((vx + w.nn.toNat) % 256)
  | .copy => next.put w.x vy
  | .union => next.put w.x (vx ||| vy)
  | .meet => next.put w.x (vx &&& vy)
  | .difference => next.put w.x (vx ^^^ vy)
  | .add => next.putFlagged w.x (vx + vy) (256 ≤ vx + vy)
  | .subtract => next.putFlagged w.x (256 + vx - vy) (vy ≤ vx)
  | .shiftRight => next.putFlagged w.x (vx / 2) (vx % 2 = 1)
  | .subtractFrom => next.putFlagged w.x (256 + vy - vx) (vx ≤ vy)
  | .shiftLeft => next.putFlagged w.x (2 * vx) (128 ≤ vx)
  | .setIndex => { next with index := w.nnn }
  | .jumpFrom => { v with pc := (v.registers Machine.jumpRegister + w.nnn) % 65536 }
  | .random => next.put w.x (byte.toNat &&& w.nn.toNat)
  | .draw =>
    (next.blit vx vy w.n v.index).put Machine.flagRegister
      (if v.Hits vx vy w.n v.index then 1 else 0)
  | .skipIfPressed => v.skipIf (v.keys vx = true)
  | .skipUnlessPressed => v.skipIf (v.keys vx = false)
  | .readDelay => next.put w.x v.delay
  | .awaitKey => { v with pc := if v.keys vx then v.pc + 2 else v.pc }
  | .setDelay => { next with delay := vx }
  | .setSound => { next with sound := vx }
  | .addIndex => { next with index := (v.index + vx) % 65536 }
  | .pointToGlyph => { next with index := fontAddress + 5 * vx }
  | .storeDecimal => next.fill v.index 3 fun k ↦
      if k = 0 then vx / 100 else if k = 1 then vx / 10 % 10 else vx % 10
  | .storeRegisters =>
    { next.fill v.index (w.x.val + 1) fun k ↦ v.registers (Nibble.ofNat k) with index := passed }
  | .loadRegisters =>
    { next with
      registers := fun r ↦ if r ≤ w.x then v.memory (v.index + r) else v.registers r
      index := passed }

/-- No instruction is being carried out any more. -/
theorem busy_after (legacyStore : Bool) (i : Instruction) (byte : UInt8) (v : View) :
    (after legacyStore i byte v).busy = false := by
  obtain ⟨op, w⟩ := i
  cases op <;> rfl

/-- What keeps an instruction from being carried out. -/
inductive Obstacle (v : View) : Instruction → Cause → Prop
  /-- No call is open. -/
  | underflow {w : Word} : v.depth = 0 → Obstacle v ⟨.ret, w⟩ CallStack.underflow
  /-- The call stack is full. -/
  | overflow {w : Word} : v.depth = stackSize → Obstacle v ⟨.call, w⟩ CallStack.overflow
  /-- The register holds the number of no key. -/
  | key {op : Opcode} {w : Word} :
      op = .skipIfPressed ∨ op = .skipUnlessPressed ∨ op = .awaitKey →
      keyCount ≤ v.registers w.x →
      Obstacle v ⟨op, w⟩ (.outOfBounds .key (v.registers w.x))
  /-- The sprite does not lie in memory. -/
  | sprite {w : Word} :
      0 < w.n.val → memorySize < v.index + w.n →
      Obstacle v ⟨.draw, w⟩ (.outOfBounds .memory (v.index + w.n - 1))
  /-- Three digits do not fit into memory. -/
  | digits {w : Word} :
      memorySize < v.index + 3 →
      Obstacle v ⟨.storeDecimal, w⟩ (.outOfBounds .memory (v.index + 2))
  /-- The registers do not fit into memory. -/
  | registers {op : Opcode} {w : Word} :
      op = .storeRegisters ∨ op = .loadRegisters →
      memorySize < v.index + w.x.val + 1 →
      Obstacle v ⟨op, w⟩ (.outOfBounds .memory (v.index + w.x))

end Manual

end ChipEight
