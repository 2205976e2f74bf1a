import ChipEight.Proofs.Runs

/-!
# Operations that are all or nothing

An operation that looks before it changes anything, and cannot fail any more once it has begun to
change things, is done as a whole or not at all.  The operations of the machine that can be refused
are of that kind: `Observes` is for their first parts, which only look, `Succeeds` for their last
parts, which only change, and `Atomic.after_observes` and `Atomic.bind` put the parts together.  It
is the order of the parts that counts: no rule lets an operation fail once it has changed something.
-/

namespace ChipEight

namespace Action

variable {σ τ α β : Type}

/-- An action looks at the state, whether or not it likes what it finds, and changes nothing. -/
def Observes (x : Action σ α) : Prop := ∀ s, ∃ result, x s = ⟨s, result, []⟩

namespace Observes

theorem gets (f : σ → α) : Observes (gets f) := fun _ ↦ ⟨_, rfl⟩

theorem require (p : Prop) [Decidable p] (e : Error) : Observes (require p e : Action σ Unit) := by
  intro s
  rw [Action.require]
  split
  · exact ⟨_, rfl⟩
  · exact ⟨_, rfl⟩

theorem bind {x : Action σ α} {k : α → Action σ β} (hx : Observes x) (hk : ∀ a, Observes (k a)) :
    Observes (x >>= k) := by
  intro s
  obtain ⟨result, hs⟩ := hx s
  cases result with
  | error e => exact ⟨_, by rw [bind_of_error (congrArg Outcome.result hs), hs]⟩
  | ok a =>
    obtain ⟨result, hk⟩ := hk a s
    exact ⟨result, by rw [bind_of_ok (congrArg Outcome.result hs), hs, hk, List.append_nil]⟩

end Observes

/-- An action never fails. -/
def Succeeds (x : Action σ α) : Prop := ∀ s, ∃ a, (x s).result = .ok a

namespace Succeeds

theorem pure (a : α) : Succeeds (pure a : Action σ α) := fun _ ↦ ⟨a, rfl⟩

theorem gets (f : σ → α) : Succeeds (gets f) := fun s ↦ ⟨f s, rfl⟩

theorem modify (f : σ → σ) : Succeeds (modify f) := fun _ ↦ ⟨(), rfl⟩

theorem note (n : Note) : Succeeds (note n : Action σ Unit) := fun _ ↦ ⟨(), rfl⟩

theorem bind {x : Action σ α} {k : α → Action σ β} (hx : Succeeds x) (hk : ∀ a, Succeeds (k a)) :
    Succeeds (x >>= k) := by
  intro s
  obtain ⟨a, ha⟩ := hx s
  obtain ⟨b, hb⟩ := hk a (x s).state
  exact ⟨b, by rw [bind_of_ok ha, hb]⟩

end Succeeds

/-- An action that fails leaves nothing behind. -/
def Atomic (x : Action σ α) : Prop := ∀ s e, (x s).result = .error e → x s = ⟨s, .error e, []⟩

namespace Atomic

theorem of_observes {x : Action σ α} (hx : Observes x) : Atomic x := by
  intro s e he
  obtain ⟨result, hs⟩ := hx s
  rw [hs] at he ⊢
  cases he
  rfl

theorem of_succeeds {x : Action σ α} (hx : Succeeds x) : Atomic x := by
  intro s e he
  obtain ⟨a, ha⟩ := hx s
  rw [ha] at he
  cases he

/-- First to look, and then to do what is all or nothing, is all or nothing. -/
theorem after_observes {x : Action σ α} {k : α → Action σ β} (hx : Observes x)
    (hk : ∀ a, Atomic (k a)) : Atomic (x >>= k) := by
  intro s e he
  obtain ⟨result, hs⟩ := hx s
  cases result with
  | error d =>
    rw [bind_of_error (congrArg Outcome.result hs), hs] at he ⊢
    cases he
    rfl
  | ok a =>
    rw [bind_of_ok (congrArg Outcome.result hs), hs] at he ⊢
    rw [hk a s e he, List.append_nil]

/-- What cannot fail may follow on what is all or nothing. -/
theorem bind {x : Action σ α} {k : α → Action σ β} (hx : Atomic x) (hk : ∀ a, Succeeds (k a)) :
    Atomic (x >>= k) := by
  intro s e he
  cases hr : (x s).result with
  | error d =>
    rw [bind_of_error hr] at he ⊢
    cases he
    rw [hx s _ hr]
  | ok a =>
    obtain ⟨b, hb⟩ := hk a (x s).state
    rw [bind_of_ok hr, hb] at he
    cases he

theorem map {x : Action σ α} (f : α → β) (hx : Atomic x) : Atomic (f <$> x) := by
  rw [map_eq_pure_bind]
  exact hx.bind fun _ ↦ .pure _

/-- A part that is left as it was leaves the whole as it was. -/
theorem on {part : σ → τ} {replace : τ → σ → σ} {x : Action τ α} (hx : Atomic x)
    (hreplace : ∀ s, replace (part s) s = s) : Atomic (on part replace x) := by
  intro s e he
  rw [on_apply] at he ⊢
  rw [hx (part s) e he, hreplace]

end Atomic

end Action

open ChipEight.Action (Atomic Observes Succeeds)

/-! ## The parts of the machine -/

namespace CallStack

theorem atomic_push (address : Int) : Atomic (push address) := by
  refine .after_observes (.gets _) fun depth ↦ .after_observes (.require _ _) fun _ ↦ ?_
  exact .of_succeeds ((Succeeds.modify _).bind fun _ ↦ .modify _)

theorem atomic_pop : Atomic pop := by
  refine .after_observes (.gets _) fun depth ↦ .after_observes (.require _ _) fun _ ↦ ?_
  exact .of_succeeds ((Succeeds.modify _).bind fun _ ↦ .gets _)

end CallStack

namespace Keypad

theorem atomic_isPressed (key : Int) : Atomic (isPressed key) :=
  .of_observes ((Observes.require _ _).bind fun _ ↦ .gets _)

theorem atomic_set (key : Int) (down : Bool) : Atomic (set key down) :=
  .after_observes (.require _ _) fun _ ↦ .of_succeeds (.modify _)

theorem atomic_setAll (states : List Bool) : Atomic (setAll states) := by
  unfold setAll
  split
  · exact .of_succeeds (.modify _)
  · intro s e he
    cases he
    rfl

end Keypad

namespace Machine

theorem observes_onMemory {α : Type} {x : Action Memory α} (hx : Observes x) :
    Observes (onMemory x) := by
  intro m
  obtain ⟨result, hm⟩ := hx m.memory
  exact ⟨result, by rw [onMemory, Action.on_apply, hm]⟩

theorem observes_read (address : Int) : Observes (read address) :=
  observes_onMemory ((Observes.require _ _).bind fun _ ↦ .gets _)

theorem observes_readBlock (address count : Int) : Observes (readBlock address count) :=
  observes_onMemory ((Observes.require _ _).bind fun _ ↦ .gets _)

theorem atomic_write (address value : Int) : Atomic (write address value) := by
  have hmemory : Atomic (Memory.write address (UInt8.ofInt value)) :=
    .after_observes (.require _ _) fun _ ↦ .of_succeeds (.modify _)
  exact hmemory.on fun _ ↦ rfl

theorem atomic_writeBlock (address : Int) (data : Bytes) : Atomic (writeBlock address data) := by
  have hmemory : Atomic (Memory.writeBlock address data) :=
    .after_observes (.require _ _) fun _ ↦ .of_succeeds (.modify _)
  exact hmemory.on fun _ ↦ rfl

theorem atomic_push (address : Int) : Atomic (push address) :=
  (CallStack.atomic_push address).on fun _ ↦ rfl

theorem atomic_pop : Atomic pop := CallStack.atomic_pop.on fun _ ↦ rfl

theorem atomic_pixel (x y : Int) : Atomic (pixel x y) := by
  have hscreen : Atomic (Screen.pixel x y) :=
    .of_observes ((Observes.require _ _).bind fun _ ↦ .gets _)
  exact hscreen.on fun _ ↦ rfl

/-- Both bytes of a word are read before the program counter moves. -/
theorem atomic_fetch : Atomic fetch := by
  refine .after_observes (.gets _) fun _ ↦ .after_observes (observes_read _) fun high ↦ ?_
  refine .after_observes (.gets _) fun _ ↦ .after_observes (observes_read _) fun low ↦ ?_
  exact .of_succeeds ((Succeeds.modify _).bind fun _ ↦ .pure _)

/-- The whole sprite is read before the first pixel is turned over. -/
theorem atomic_drawSprite (x y : Int) (height : Nat) (address : Int) :
    Atomic (drawSprite x y height address) := by
  refine .after_observes (observes_readBlock _ _) fun sprite ↦ .of_succeeds ?_
  have hblit : Succeeds (onScreen (Screen.blit sprite x y)) := fun m ↦ ⟨_, rfl⟩
  exact hblit.bind fun _ ↦ (Succeeds.modify _).bind fun _ ↦ .pure _

/-- A load looks at everything that it may be refused for, and only then resets the machine and
writes to the memory. -/
theorem atomic_load (program font : Bytes) : Atomic (load program font) := by
  refine .after_observes (.gets _) fun _ ↦ .after_observes (.require _ _) fun _ ↦ ?_
  refine .after_observes (.require _ _) fun _ ↦ .after_observes (.require _ _) fun _ ↦ ?_
  refine .of_succeeds ((Succeeds.modify _).bind fun _ ↦ ?_)
  exact (Succeeds.modify _).bind fun _ ↦ (Succeeds.modify _).bind fun _ ↦ .note _

end Machine

namespace Interpreter

variable {α : Type} {x : Action Machine α}

theorem atomic_onMachine (hx : Atomic x) : Atomic (onMachine x) := hx.on fun _ ↦ rfl

theorem atomic_ask (reply : α → Reply) (hx : Atomic x) : Atomic (ask reply x) :=
  (atomic_onMachine hx).map reply

theorem atomic_askKeypad {y : Action Keypad α} (reply : α → Reply) (hy : Atomic y) :
    Atomic (ask reply (Machine.onKeypad y)) := atomic_ask reply (hy.on fun _ ↦ rfl)

theorem atomic_loadMachine (program font : Bytes) : Atomic (loadMachine program font) :=
  atomic_onMachine (Machine.atomic_load program font)

/-- The clocks and the fault are reset when the machine has accepted the program. -/
theorem atomic_load (program font : Bytes) : Atomic (load program font) :=
  (atomic_loadMachine program font).bind fun _ ↦ .modify _

end Interpreter

end ChipEight
