import ChipEight.Proofs.FrameRate

/-!
# The history of a run

While a host plays, two kinds of things happen to an interpreter: programs are loaded, and steps of
the processor begin, one at the host's request or one after the other in a time step.
`Interpreter.history` lists these events in their order, each step with the interpreter as it finds
it.  The notes of a run are those of its events, so that none of them is missing, and what each
event enters into an account of the past is kept by a whole run (`Accounts.performAll`).
-/

namespace ChipEight

/-- Requests of a host that plays a program: it loads one, asks for instructions, hands over time
and works the keys. -/
inductive Command.Plays : Command → Prop
  | load (program font : Bytes) : Plays (.load program font)
  | step : Plays .step
  | stepProcessor : Plays .stepProcessor
  | tick (dt : Binary64) : Plays (.tick dt)
  | advance (dt : Binary64) : Plays (.advance dt)
  | setKey (key : Int) (down : Bool) : Plays (.setKey key down)
  | setKeys (states : List Bool) : Plays (.setKeys states)
  | releaseKeys : Plays .releaseKeys

namespace Action

variable {σ γ : Type} {x : Action σ Unit}

/-- The states in which the repetitions of an action begin.  One that fails is the last. -/
def beginnings (x : Action σ Unit) : Nat → σ → List σ
  | 0, _ => []
  | n + 1, s =>
    s :: match (x s).result with
      | .ok () => beginnings x n (x s).state
      | .error _ => []

/-- What each repetition enters into an account is an account of all of them. -/
theorem state_replicate_of_entry {R : σ → γ → Prop} {enter : γ → σ → γ}
    (hx : ∀ s g, R s g → R (x s).state (enter g s)) (n : Nat) {s : σ} {g : γ} (h : R s g) :
    R (replicate n x s).state ((x.beginnings n s).foldl enter g) := by
  induction n generalizing s g with
  | zero => exact h
  | succ n ih =>
    have hfirst := hx s g h
    rw [replicate_succ, beginnings]
    cases hr : (x s).result with
    | error e =>
      rw [bind_of_error hr]
      exact hfirst
    | ok a =>
      rw [bind_of_ok hr]
      exact ih hfirst

/-- The notes of the repetitions, one after the other. -/
theorem log_replicate (x : Action σ Unit) (n : Nat) (s : σ) :
    (replicate n x s).log = (x.beginnings n s).flatMap fun s ↦ (x s).log := by
  induction n generalizing s with
  | zero => rfl
  | succ n ih =>
    rw [replicate_succ, beginnings, List.flatMap_cons]
    cases hr : (x s).result with
    | error e =>
      rw [bind_of_error hr]
      exact (List.append_nil _).symm
    | ok a =>
      rw [bind_of_ok hr, ih]

end Action

/-- Something that happens to an interpreter. -/
inductive Event where
  /-- A program of the given size is loaded. -/
  | loaded (size : Nat)
  /-- A step of the processor begins. -/
  | stepped (before : Interpreter)

namespace Event

open Interpreter (stepProcessor)

/-- The notes that come with an event. -/
def notes : Event → List Note
  | .loaded size => [.programLoaded size]
  | .stepped i => (stepProcessor i).log

/-- The instruction that is carried out at an event. -/
def instruction? : Event → Option Instruction
  | .loaded _ => none
  | .stepped i =>
    match (stepProcessor i).result with
    | .ok answer => answer
    | .error _ => none

end Event

namespace Interpreter

variable {γ : Type} {i : Interpreter}

/-- The interpreters on which a time step begins a step of the processor. -/
def stepsOfTime (dt : Binary64) (i : Interpreter) : List Interpreter :=
  if dt.isNegative || i.processor.isHalted then []
  else
    match (accrue dt i).result with
    | .ok count =>
      (Batch.turn.beginnings count (.start (accrue dt i).state)).map Batch.interpreter
    | .error _ => []

/-- What happens at a command. -/
def events : Command → Interpreter → List Event
  | .load program font, i =>
    match (load program font i).result with
    | .ok () => [.loaded program.length]
    | .error _ => []
  | .step, i => if i.loaded then [.stepped i] else []
  | .stepProcessor, i => [.stepped i]
  | .tick dt, i => if i.loaded then (stepsOfTime dt i).map .stepped else []
  | .advance dt, i => (stepsOfTime dt i).map .stepped
  | _, _ => []

/-- What happens in a run of commands. -/
def history : List Command → Interpreter → List Event
  | [], _ => []
  | c :: commands, i => events c i ++ history commands (perform c i).state

/-- A new interpreter has a new machine. -/
theorem machine_new {s : Settings} {source : Source} (h : new s source = .ok i) :
    i.machine = .initial := by
  obtain ⟨_, -, rfl⟩ := eq_of_new h
  rfl

/-! ## Time steps -/

/-- A time step adds to the account of pending time and makes some turns. -/
theorem advance_eq_turns (dt : Binary64) (i : Interpreter) :
    ∃ x count,
      let start := Batch.start (i.withPending x)
      (advance dt i).state = (Action.replicate count Batch.turn start).state.close ∧
      (advance dt i).log = (Action.replicate count Batch.turn start).log ∧
      stepsOfTime dt i = (Batch.turn.beginnings count start).map Batch.interpreter := by
  cases hdt : dt.isNegative with
  | true =>
    refine ⟨i.pacer.pending, 0, ?_⟩
    rw [advance_of_isNegative hdt, stepsOfTime, hdt]
    exact ⟨rfl, rfl, rfl⟩
  | false =>
    cases running : i.processor.isHalted with
    | true =>
      refine ⟨i.pacer.pending, 0, ?_⟩
      rw [advance_of_isHalted running hdt, stepsOfTime, running, Bool.or_true]
      exact ⟨rfl, rfl, rfl⟩
    | false =>
      obtain ⟨x, hx⟩ := state_accrue dt i
      rw [advance, if_neg (by simp [hdt]), Action.gets_bind, if_neg (by simp [running]),
        stepsOfTime, hdt, running, hx]
      cases hr : (accrue dt i).result with
      | error e =>
        refine ⟨x, 0, ?_⟩
        rw [Action.bind_of_error hr, hx]
        exact ⟨rfl, rfl, rfl⟩
      | ok count =>
        refine ⟨x, count, ?_⟩
        rw [Action.bind_of_ok hr, hx, batch_apply]
        exact ⟨rfl, rfl, rfl⟩

/-! ## Notes -/

theorem log_turn (b : Batch) : (Batch.turn b).log = (stepProcessor b.interpreter).log := by
  have hlog : (Batch.onInterpreter stepProcessor b).log = (stepProcessor b.interpreter).log := rfl
  cases h : (Batch.onInterpreter stepProcessor b).result with
  | ok answer =>
    rw [Batch.turn, Action.bind_of_ok h]
    exact (List.append_nil _).trans hlog
  | error e => rw [Batch.turn, Action.bind_of_error h, hlog]

theorem log_advance (dt : Binary64) (i : Interpreter) :
    (advance dt i).log = ((stepsOfTime dt i).map Event.stepped).flatMap Event.notes := by
  obtain ⟨x, count, -, hlog, hsteps⟩ := advance_eq_turns dt i
  rw [hlog, hsteps, Action.log_replicate, List.map_map, List.flatMap_map]
  simp only [log_turn]
  rfl

theorem log_ask {α : Type} {x : Action Machine α} (hx : x.Silent) (reply : α → Reply)
    (i : Interpreter) : (ask reply x i).log = [] := by
  rw [ask_apply]
  exact hx i.machine

theorem log_perform {c : Command} (hc : c.Plays) (i : Interpreter) :
    (perform c i).log = (events c i).flatMap Event.notes := by
  cases hc with
  | load program font =>
    rw [perform, Action.map_apply, events]
    obtain ⟨e, hm⟩ | hm := i.machine.load_cases program font
    · rw [load_of_error hm]
      rfl
    · rw [load_of_ok hm]
      rfl
  | step =>
    rw [perform, Action.map_apply, step, Action.gets_bind, events]
    split
    · exact (List.flatMap_singleton ..).symm
    · rfl
  | stepProcessor =>
    rw [perform, Action.map_apply, events]
    exact (List.flatMap_singleton ..).symm
  | tick dt =>
    rw [perform, Action.map_apply, tick, Action.gets_bind, events]
    split
    · exact log_advance dt i
    · rfl
  | advance dt =>
    rw [perform, Action.map_apply]
    exact log_advance dt i
  | setKey key down => exact log_ask (Machine.Aside.setKey key down).silent _ i
  | setKeys states => exact log_ask (Machine.Aside.setKeys states).silent _ i
  | releaseKeys => exact log_ask Machine.Aside.releaseKeys.silent _ i

/-- The notes of a run are those of its events. -/
theorem notes_eq_history {commands : List Command} (hc : ∀ c ∈ commands, c.Plays)
    (i : Interpreter) : notes commands i = (history commands i).flatMap Event.notes := by
  induction commands generalizing i with
  | nil => rfl
  | cons c commands ih =>
    obtain ⟨hhead, htail⟩ := List.forall_mem_cons.1 hc
    rw [notes_cons, history, List.flatMap_append, log_perform hhead, ih htail]

/-! ## Accounts -/

/-- A relation between interpreters and accounts of their past that is kept when each event is
entered into the account. -/
structure Accounts (enter : γ → Event → γ) (R : Interpreter → γ → Prop) : Prop where
  stepProcessor : ∀ {i g}, R i g → R (stepProcessor i).state (enter g (.stepped i))
  payTimers : ∀ {i g}, R i g → R i.payTimers g
  countInstructions : ∀ {i g} (n : Nat), R i g → R (i.countInstructions n) g
  withPending : ∀ {i g} (x : Binary64), R i g → R (i.withPending x) g
  withKeypad : ∀ {i g} (k : Keypad), R i g → R (i.withKeypad k) g
  load : ∀ {i g} (program font : Bytes), R i g →
    R { (i.withMachine (i.machine.inserted program font)).resetProcessor.resetPacer with
        loaded := true }
      (enter g (.loaded program.length))

namespace Accounts

variable {enter : γ → Event → γ} {R : Interpreter → γ → Prop} {g : γ} (h : Accounts enter R)
include h

theorem turn {b : Batch} (hb : R b.interpreter g) :
    R (Batch.turn b).state.interpreter (enter g (.stepped b.interpreter)) := by
  have hstep : R (Batch.onInterpreter Interpreter.stepProcessor b).state.interpreter
      (enter g (.stepped b.interpreter)) := h.stepProcessor hb
  cases hr : (Batch.onInterpreter Interpreter.stepProcessor b).result with
  | ok answer =>
    rw [Batch.turn, Action.bind_of_ok hr]
    exact h.payTimers hstep
  | error e =>
    rw [Batch.turn, Action.bind_of_error hr]
    exact hstep

theorem advance (dt : Binary64) (hi : R i g) :
    R (advance dt i).state (((stepsOfTime dt i).map Event.stepped).foldl enter g) := by
  obtain ⟨x, count, hstate, -, hsteps⟩ := advance_eq_turns dt i
  rw [hstate, hsteps, List.map_map, List.foldl_map]
  refine h.countInstructions _ ?_
  exact Action.state_replicate_of_entry (R := fun b : Batch ↦ R b.interpreter) (fun _ _ ↦ h.turn)
    count (s := .start (i.withPending x)) (h.withPending x hi)

theorem perform {c : Command} (hc : c.Plays) (hi : R i g) :
    R (perform c i).state ((events c i).foldl enter g) := by
  cases hc with
  | load program font =>
    rw [Interpreter.perform, Action.state_map, events]
    obtain ⟨e, hm⟩ | hm := i.machine.load_cases program font
    · rw [load_of_error hm]
      exact hi
    · rw [load_of_ok hm]
      exact h.load program font hi
  | step =>
    rw [Interpreter.perform, Action.state_map, step, Action.gets_bind, events]
    split
    · exact h.stepProcessor hi
    · exact hi
  | stepProcessor =>
    rw [Interpreter.perform, Action.state_map]
    exact h.stepProcessor hi
  | tick dt =>
    rw [Interpreter.perform, Action.state_map, tick, Action.gets_bind, events]
    split
    · exact h.advance dt hi
    · exact hi
  | advance dt =>
    rw [Interpreter.perform, Action.state_map]
    exact h.advance dt hi
  | setKey key down =>
    rw [Interpreter.perform, request, state_ask_onKeypad]
    exact h.withKeypad _ hi
  | setKeys states =>
    rw [Interpreter.perform, request, state_ask_onKeypad]
    exact h.withKeypad _ hi
  | releaseKeys =>
    rw [Interpreter.perform, request, state_ask_onKeypad]
    exact h.withKeypad _ hi

/-- What each event enters into an account is an account of a whole run. -/
theorem performAll {commands : List Command} (hc : ∀ c ∈ commands, c.Plays) (hi : R i g) :
    R (performAll commands i) ((history commands i).foldl enter g) := by
  induction commands generalizing i g with
  | nil => exact hi
  | cons c commands ih =>
    obtain ⟨hhead, htail⟩ := List.forall_mem_cons.1 hc
    rw [performAll_cons, history, List.foldl_append]
    exact ih htail (h.perform hhead hi)

end Accounts

end Interpreter

end ChipEight
