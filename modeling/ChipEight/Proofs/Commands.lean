import ChipEight.Proofs.Runs
import ChipEight.Proofs.Step

/-!
# Commands and what they are made of

Most commands read and change the machine alone, and nothing of its call stack: the answer and the
machine afterwards are functions of the machine before, and its stack, the processor and the clocks
are no matter of theirs.  `asideOfStack_perform` says so once for all of them.  The others are put
together from few parts, and `Hereditary.perform` says that what the parts have in common all
commands have, so that what is to be shown of every command is shown of these parts.
-/

namespace ChipEight

/-- Commands that read and change the machine alone, and nothing of its call stack. -/
def Command.SparesStack : Command → Prop
  | .load .. | .loadMachine .. | .step | .stepProcessor | .runProcessor _ | .tick _ | .advance _
  | .resetProcessor | .resetPacer | .resetMachine | .push _ | .pop => False
  | _ => True

namespace Machine

variable {α : Type}

/-- The machine with another call stack. -/
def withStack (m : Machine) (stack : CallStack) : Machine := { m with stack := stack }

/-- An action of the machine writes no notes, takes no notice of the call stack and leaves it as it
is. -/
structure Aside (x : Action Machine α) : Prop where
  silent : x.Silent
  ignores : ∀ stack : CallStack, x.Ignores (·.withStack stack)

namespace Aside

theorem pure (a : α) : Aside (pure a) := ⟨.pure a, fun _ ↦ .pure a⟩

theorem modify {f : Machine → Machine}
    (h : ∀ m stack, f (withStack m stack) = (f m).withStack stack) : Aside (Action.modify f) :=
  ⟨.modify f, fun stack ↦ .modify fun m ↦ h m stack⟩

theorem onMemory {x : Action Memory α} (hx : x.Silent) : Aside (onMemory x) :=
  ⟨hx.on, fun _ ↦ .on (fun _ ↦ rfl) fun _ _ ↦ rfl⟩

theorem onScreen {x : Action Screen α} (hx : x.Silent) : Aside (onScreen x) :=
  ⟨hx.on, fun _ ↦ .on (fun _ ↦ rfl) fun _ _ ↦ rfl⟩

theorem onKeypad {x : Action Keypad α} (hx : x.Silent) : Aside (onKeypad x) :=
  ⟨hx.on, fun _ ↦ .on (fun _ ↦ rfl) fun _ _ ↦ rfl⟩

theorem bind {β : Type} {x : Action Machine α} {k : α → Action Machine β} (hx : Aside x)
    (hk : ∀ a, Aside (k a)) : Aside (x >>= k) :=
  ⟨hx.silent.bind fun a ↦ (hk a).silent, fun stack ↦
    (hx.ignores stack).bind fun a ↦ (hk a).ignores stack⟩

theorem read (address : Int) : Aside (read address) :=
  onMemory ((Action.Silent.require _ _).bind fun _ ↦ .gets _)

theorem write (address value : Int) : Aside (write address value) :=
  onMemory ((Action.Silent.require _ _).bind fun _ ↦ .modify _)

theorem readBlock (address count : Int) : Aside (readBlock address count) :=
  onMemory ((Action.Silent.require _ _).bind fun _ ↦ .gets _)

theorem writeBlock (address : Int) (data : Bytes) : Aside (writeBlock address data) :=
  onMemory ((Action.Silent.require _ _).bind fun _ ↦ .modify _)

theorem pixel (x y : Int) : Aside (pixel x y) :=
  onScreen ((Action.Silent.require _ _).bind fun _ ↦ .gets _)

/-- A fetch looks at the program counter and the memory alone. -/
theorem fetch : Aside fetch := by
  have hpc : Aside (Action.gets pc) := ⟨.gets _, fun _ ↦ .gets fun _ ↦ rfl⟩
  refine hpc.bind fun a ↦ (read a).bind fun high ↦ hpc.bind fun b ↦ (read _).bind fun low ↦ ?_
  exact (modify fun _ _ ↦ rfl).bind fun _ ↦ pure _

theorem drawSprite (x y : Int) (height : Nat) (address : Int) :
    Aside (drawSprite x y height address) := by
  have hblit (sprite : Bytes) : Aside (Machine.onScreen (Screen.blit sprite x y)) :=
    onScreen fun _ ↦ rfl
  refine (readBlock _ _).bind fun sprite ↦ (hblit sprite).bind fun collision ↦ ?_
  exact (modify fun _ _ ↦ rfl).bind fun _ ↦ pure _

theorem isPressed (key : Int) : Aside (Machine.onKeypad (Keypad.isPressed key)) :=
  onKeypad ((Action.Silent.require _ _).bind fun _ ↦ .gets _)

theorem setKey (key : Int) (down : Bool) : Aside (Machine.onKeypad (Keypad.set key down)) :=
  onKeypad ((Action.Silent.require _ _).bind fun _ ↦ .modify _)

theorem setKeys (states : List Bool) : Aside (Machine.onKeypad (Keypad.setAll states)) := by
  refine onKeypad fun k ↦ ?_
  by_cases h : states.length = keyCount
  · rw [k.setAll_of_length_eq h]
  · rw [k.setAll_of_length_ne h]

theorem releaseKeys : Aside (Machine.onKeypad Keypad.clear) := onKeypad (.modify _)

/-- What leaves the call stack alone keeps it. -/
theorem stack_eq {x : Action Machine α} (hx : Aside x) (m : Machine) :
    (x m).state.stack = m.stack := by
  have hown := congrArg Outcome.state (hx.ignores m.stack m)
  change (x m).state = (x m).state.withStack m.stack at hown
  rw [hown]
  rfl

end Aside

end Machine

namespace Interpreter

/-- An action on the machine alone, aside of its call stack. -/
def AsideOfStack (x : Action Interpreter Reply) : Prop := ∃ y, x = onMachine y ∧ Machine.Aside y

theorem AsideOfStack.ask {α : Type} {reply : α → Reply} {x : Action Machine α}
    (hx : Machine.Aside x) : AsideOfStack (ask reply x) := by
  refine ⟨reply <$> x, ?_, hx.silent.map reply, fun stack ↦ (hx.ignores stack).map reply⟩
  funext i
  rw [ask_apply, onMachine, Action.on_apply, Action.map_apply]

theorem asideOfStack_perform {c : Command} (hc : c.SparesStack) : AsideOfStack (perform c) := by
  cases c with
  | load program font => exact hc.elim
  | loadMachine program font => exact hc.elim
  | step => exact hc.elim
  | stepProcessor => exact hc.elim
  | runProcessor count => exact hc.elim
  | tick dt => exact hc.elim
  | advance dt => exact hc.elim
  | resetProcessor => exact hc.elim
  | resetPacer => exact hc.elim
  | resetMachine => exact hc.elim
  | push address => exact hc.elim
  | pop => exact hc.elim
  | consumeRedraw =>
    exact ⟨fun m ↦ ⟨{ m with redraw := false }, .ok (.flag m.redraw), []⟩, rfl, fun _ ↦ rfl,
      fun _ _ ↦ rfl⟩
  | read address => exact .ask (.read address)
  | write address value => exact .ask (.write address value)
  | readBlock address count => exact .ask (.readBlock address count)
  | writeBlock address data => exact .ask (.writeBlock address data)
  | countDown => exact .ask (.modify fun _ _ ↦ rfl)
  | clearScreen => exact .ask (.modify fun _ _ ↦ rfl)
  | pixel x y => exact .ask (.pixel x y)
  | fetch => exact .ask .fetch
  | drawSprite x y height address => exact .ask (.drawSprite x y height address)
  | assign assignment =>
    refine .ask (.modify fun m stack ↦ ?_)
    cases assignment <;> rfl
  | setKey key down => exact .ask (.setKey key down)
  | isPressed key => exact .ask (.isPressed key)
  | setKeys states => exact .ask (.setKeys states)
  | releaseKeys => exact .ask .releaseKeys

/-! ## Commands and their parts -/

end Interpreter

/-- Commands that leave it to the program to call and to return. -/
def Command.LeavesCalls : Command → Prop
  | .push _ | .pop | .resetMachine => False
  | _ => True

namespace Interpreter

/-- A property of actions that is handed on from the parts of an action to the whole, and which the
parts have of which commands are made. -/
structure Hereditary (T : (α : Type) → Action Interpreter α → Prop) : Prop where
  pure : ∀ {α : Type} (a : α), T α (pure a)
  fail : ∀ {α : Type} (e : Error), T α (Action.fail e)
  bind : ∀ {α β : Type} {x : Action Interpreter α} {k : α → Action Interpreter β},
    T α x → (∀ a, T β (k a)) → T β (x >>= k)
  isHalted : T Bool (Action.gets fun i ↦ i.processor.isHalted)
  loaded : T Bool (Action.gets loaded)
  stepProcessor : T _ stepProcessor
  endTurn : T Unit (Action.modify endTurn)
  accrue : ∀ dt, T Nat (accrue dt)
  loadMachine : ∀ program font, T Unit (loadMachine program font)
  restart : T Unit (Action.modify fun i ↦ { i.resetProcessor.resetPacer with loaded := true })
  resetProcessor : T Unit (Action.modify resetProcessor)
  resetPacer : T Unit (Action.modify resetPacer)
  asideOfStack : ∀ {x}, AsideOfStack x → T Reply x

namespace Hereditary

variable {T : (α : Type) → Action Interpreter α → Prop}

theorem of_branches {α : Type} {b : Prop} [Decidable b] {x y : Action Interpreter α} (hx : T α x)
    (hy : T α y) : T α (if b then x else y) := by
  split
  · exact hx
  · exact hy

variable (h : Hereditary T)
include h

theorem map {α β : Type} {x : Action Interpreter α} (f : α → β) (hx : T α x) : T β (f <$> x) := by
  rw [map_eq_pure_bind]
  exact h.bind hx fun _ ↦ h.pure _

theorem replicate {x : Action Interpreter Unit} (hx : T Unit x) (n : Nat) :
    T Unit (Action.replicate n x) := by
  induction n with
  | zero => exact h.pure ()
  | succ n ih =>
    rw [Action.replicate_succ]
    exact h.bind hx fun _ ↦ ih

theorem turn : T Unit turn := h.bind h.stepProcessor fun _ ↦ h.endTurn

theorem advance (dt : Binary64) : T Nat (advance dt) := by
  rw [advance_eq]
  refine of_branches (h.fail _) (h.bind h.isHalted fun _ ↦ of_branches (h.pure _) ?_)
  exact h.bind (h.accrue dt) fun count ↦ h.bind (h.replicate h.turn count) fun _ ↦ h.pure _

theorem perform {c : Command} (hc : c.LeavesCalls) : T Reply (perform c) := by
  cases c with
  | load program font => exact h.map _ (h.bind (h.loadMachine program font) fun _ ↦ h.restart)
  | loadMachine program font => exact h.map _ (h.loadMachine program font)
  | step => exact h.map _ (h.bind h.loaded fun _ ↦ of_branches h.stepProcessor (h.pure _))
  | stepProcessor => exact h.map _ h.stepProcessor
  | runProcessor count =>
    have hstep : T Unit (do let _ ← Interpreter.stepProcessor) :=
      h.bind h.stepProcessor fun _ ↦ h.pure _
    exact h.bind (h.replicate hstep count) fun _ ↦ h.pure _
  | tick dt => exact h.map _ (h.bind h.loaded fun _ ↦ of_branches (h.advance dt) (h.pure _))
  | advance dt => exact h.map _ (h.advance dt)
  | resetProcessor => exact h.map _ h.resetProcessor
  | resetPacer => exact h.map _ h.resetPacer
  | resetMachine => exact hc.elim
  | push address => exact hc.elim
  | pop => exact hc.elim
  | _ =>
    refine h.asideOfStack (asideOfStack_perform ?_)
    exact trivial

end Hereditary

/-! ## Properties that are not of the machine -/

open ChipEight.Action (Preserves)

variable {P : Interpreter → Prop}

/-- A property on which the machine has no bearing, and which the few things keep that happen to an
interpreter outside of its machine. -/
structure Independent (P : Interpreter → Prop) : Prop where
  withMachine : ∀ i m, P i → P (i.withMachine m)
  stepProcessor : Preserves P stepProcessor
  endTurn : ∀ i, P i → P i.endTurn
  accrue : ∀ dt, Preserves P (accrue dt)
  resetProcessor : ∀ i, P i → P i.resetProcessor
  resetPacer : ∀ i, P i → P i.resetPacer
  loaded : ∀ i, P i → P { i with loaded := true }

namespace Independent

variable (h : Independent P)
include h

theorem onMachine {α : Type} (x : Action Machine α) : Preserves P (onMachine x) :=
  fun i hi ↦ h.withMachine i _ hi

theorem hereditary : Hereditary fun _ ↦ Preserves P where
  pure := .pure
  fail := .fail
  bind := .bind
  isHalted := .gets _
  loaded := .gets _
  stepProcessor := h.stepProcessor
  endTurn := h.endTurn
  accrue := h.accrue
  loadMachine _ _ := h.onMachine _
  restart i hi := h.loaded _ (h.resetPacer _ (h.resetProcessor i hi))
  resetProcessor := h.resetProcessor
  resetPacer := h.resetPacer
  asideOfStack := by
    rintro _ ⟨y, rfl, -⟩
    exact h.onMachine y

theorem perform (c : Command) : Preserves P (perform c) := by
  cases c with
  | resetMachine => exact (h.onMachine _).map _
  | push address => exact (h.onMachine _).map _
  | pop => exact (h.onMachine _).map _
  | _ =>
    refine h.hereditary.perform ?_
    exact trivial

theorem performAll {i : Interpreter} (hi : P i) (commands : List Command) :
    P (performAll commands i) := by
  have hall : ∀ c ∈ commands, True := fun _ _ ↦ trivial
  exact performAll_invariant (fun c _ ↦ h.perform c) hall hi

/-- In the middle of a time step the property holds when the instructions so far are counted. -/
theorem partway {i : Interpreter} (hi : P i) (dt : Binary64) (turns : Nat) :
    P (partway dt turns i).state.close :=
  invariant_partway h.hereditary.turn (h.accrue dt) turns hi

end Independent

end Interpreter

end ChipEight
