import ChipEight.Action
import ChipEight.Machine
import ChipEight.Random.Source

/-!
# The state of the processor

The machine with all that steers its execution, and the few ways in which an instruction acts on
them. What an instruction did before it fails stays done.
-/

namespace ChipEight

/-- A machine with its source of random bytes, the ways in which it may differ from others, and what
halted it. -/
structure Processor where
  machine : Machine
  source : Source
  /-- Unknown words are skipped. -/
  debug : Bool
  /-- Storing and loading registers moves the index register. -/
  legacyStore : Bool
  /-- A fault has stopped the processor. -/
  isHalted : Bool
  fault : Option Fault
  /-- The keys that were down when the latest instruction began; none are known before the first. -/
  keys : List Bool

namespace Processor

variable {α : Type}

/-- A processor that has not run yet. -/
def initial (source : Source) (debug legacyStore : Bool) : Processor :=
  ⟨.initial, source, debug, legacyStore, false, none, []⟩

/-- Forgets the fault. -/
def reset (p : Processor) : Processor := { p with isHalted := false, fault := none }

/-- Changes the machine. -/
def change (f : Machine → Machine) : Action Processor Unit :=
  Action.modify fun p ↦ { p with machine := f p.machine }

/-- An action of the machine. -/
def onMachine (x : Action Machine α) : Action Processor α :=
  Action.on machine (fun m p ↦ { p with machine := m }) x

/-- Draws a random byte. -/
def drawByte : Action Processor UInt8 := fun p ↦
  let (byte, source) := p.source.draw
  ⟨{ p with source := source }, .ok byte, []⟩

/-- Whether a key was down when the instruction began. -/
def keyDown (key : Nat) : Action Processor Bool := fun p ↦
  match p.keys[key]? with
  | some down => ⟨p, .ok down, []⟩
  | none => ⟨p, .error (.ofCause (.outOfBounds .key key)), []⟩

@[simp] theorem change_apply (f : Machine → Machine) (p : Processor) :
    change f p = ⟨{ p with machine := f p.machine }, .ok (), []⟩ := rfl

@[simp] theorem drawByte_apply (p : Processor) :
    drawByte p = ⟨{ p with source := p.source.draw.2 }, .ok p.source.draw.1, []⟩ := rfl

theorem change_bind {β : Type} (f : Machine → Machine) (k : Unit → Action Processor β)
    (p : Processor) : (change f >>= k) p = k () { p with machine := f p.machine } := rfl

theorem onMachine_of_ok {x : Action Machine α} {p : Processor} {a : α} {m : Machine}
    (h : x p.machine = ⟨m, .ok a, []⟩) : onMachine x p = ⟨{ p with machine := m }, .ok a, []⟩ := by
  rw [onMachine, Action.on_apply, h]

theorem onMachine_of_error {x : Action Machine α} {p : Processor} {e : Error}
    (h : x p.machine = ⟨p.machine, .error e, []⟩) : onMachine x p = ⟨p, .error e, []⟩ := by
  rw [onMachine, Action.on_apply, h]

/-- What follows on an action of the machine that succeeds. -/
theorem onMachine_bind_of_ok {β : Type} {x : Action Machine α} {p : Processor} {a : α}
    {m : Machine} (h : x p.machine = ⟨m, .ok a, []⟩) (k : α → Action Processor β) :
    (onMachine x >>= k) p = k a { p with machine := m } := by
  rw [Action.bind_of_ok (by rw [onMachine_of_ok h]), onMachine_of_ok h]
  simp

/-- Nothing follows on an action of the machine that is refused. -/
theorem onMachine_bind_of_error {β : Type} {x : Action Machine α} {p : Processor} {e : Error}
    (h : x p.machine = ⟨p.machine, .error e, []⟩) (k : α → Action Processor β) :
    (onMachine x >>= k) p = ⟨p, .error e, []⟩ := by
  rw [Action.bind_of_error (by rw [onMachine_of_error h]), onMachine_of_error h]

theorem keyDown_of_some {key : Nat} {p : Processor} {down : Bool} (h : p.keys[key]? = some down) :
    keyDown key p = ⟨p, .ok down, []⟩ := by
  simp [keyDown, h]

theorem keyDown_of_none {key : Nat} {p : Processor} (h : p.keys[key]? = none) :
    keyDown key p = ⟨p, .error (.ofCause (.outOfBounds .key key)), []⟩ := by
  simp [keyDown, h]

theorem keyDown_bind_of_some {β : Type} {key : Nat} {p : Processor} {down : Bool}
    (h : p.keys[key]? = some down) (k : Bool → Action Processor β) :
    (keyDown key >>= k) p = k down p := by
  rw [Action.bind_of_ok (by rw [keyDown_of_some h]), keyDown_of_some h]
  simp

theorem keyDown_bind_of_none {β : Type} {key : Nat} {p : Processor} (h : p.keys[key]? = none)
    (k : Bool → Action Processor β) :
    (keyDown key >>= k) p = ⟨p, .error (.ofCause (.outOfBounds .key key)), []⟩ := by
  rw [Action.bind_of_error (by rw [keyDown_of_none h]), keyDown_of_none h]

end Processor

end ChipEight
