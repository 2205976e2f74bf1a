import ChipEight.Interpreter.Command

/-!
# Runs

What a host does to an interpreter is a list of commands, each of which may fail; the host goes on
with the next one all the same.  An invariant of single commands is one of runs, and an invariant of
an action is one of its repetitions.
-/

namespace ChipEight

namespace Action

variable {σ τ α β : Type} {P : σ → Prop}

/-- An action keeps to a property of states, whether or not it succeeds. -/
def Preserves (P : σ → Prop) (x : Action σ α) : Prop := ∀ s, P s → P (x s).state

namespace Preserves

/-- An action that leaves the state alone. -/
theorem of_state_eq {x : Action σ α} (h : ∀ s, (x s).state = s) : Preserves P x := by
  intro s hs
  rw [h s]
  exact hs

theorem pure (a : α) : Preserves P (pure a : Action σ α) := of_state_eq fun _ ↦ rfl

theorem fail (e : Error) : Preserves P (fail e : Action σ α) := of_state_eq fun _ ↦ rfl

theorem gets (f : σ → α) : Preserves P (gets f) := of_state_eq fun _ ↦ rfl

theorem modify {f : σ → σ} (h : ∀ s, P s → P (f s)) : Preserves P (modify f) := h

/-- An action on a part of the state keeps to a property if it does so with the part. -/
theorem on {Q : τ → Prop} {part : σ → τ} {replace : τ → σ → σ} {x : Action τ α}
    (hx : Preserves Q x) (hpart : ∀ s, P s → Q (part s))
    (hreplace : ∀ s t, P s → Q t → P (replace t s)) : Preserves P (on part replace x) :=
  fun s hs ↦ hreplace s _ hs (hx _ (hpart s hs))

theorem bind {x : Action σ α} {k : α → Action σ β} (hx : Preserves P x)
    (hk : ∀ a, Preserves P (k a)) : Preserves P (x >>= k) := by
  intro s hs
  cases hr : (x s).result with
  | error e =>
    rw [bind_of_error hr]
    exact hx s hs
  | ok a =>
    rw [bind_of_ok hr]
    exact hk a _ (hx s hs)

theorem map {x : Action σ α} (f : α → β) (hx : Preserves P x) : Preserves P (f <$> x) := by
  intro s hs
  rw [state_map]
  exact hx s hs

theorem ite {b : Prop} [Decidable b] {x y : Action σ α} (hx : Preserves P x)
    (hy : Preserves P y) : Preserves P (if b then x else y) := by
  split
  · exact hx
  · exact hy

/-- What an action preserves is preserved by any number of them in a row. -/
theorem replicate {x : Action σ Unit} (hx : Preserves P x) (n : Nat) :
    Preserves P (replicate n x) := by
  induction n with
  | zero => exact pure ()
  | succ n ih =>
    rw [replicate_succ]
    exact hx.bind fun _ ↦ ih

end Preserves

/-- From a state with a property an action, if it succeeds, leads to a state with another one, which
may depend on the answer. -/
def Ensures (P : σ → Prop) (x : Action σ α) (Q : α → σ → Prop) : Prop :=
  ∀ s, P s → ∀ a, (x s).result = .ok a → Q a (x s).state

namespace Ensures

variable {Q : α → σ → Prop} {R : β → σ → Prop}

theorem pure {a : α} (h : ∀ s, P s → Q a s) : Ensures P (pure a) Q := by
  rintro s hs _ ⟨⟩
  exact h s hs

theorem bind {x : Action σ α} {k : α → Action σ β} (hx : Ensures P x Q)
    (hk : ∀ a, Ensures (Q a) (k a) R) : Ensures P (x >>= k) R := by
  intro s hs b hb
  cases hr : (x s).result with
  | error e =>
    rw [bind_of_error hr] at hb
    cases hb
  | ok a =>
    rw [bind_of_ok hr] at hb ⊢
    exact hk a _ (hx s hs a hr) b hb

end Ensures

/-- What holds before an action that preserves it holds before the next one. -/
theorem Preserves.bind_ensures {x : Action σ α} {k : α → Action σ β} {R : β → σ → Prop}
    (hx : Preserves P x) (hk : ∀ a, Ensures P (k a) R) : Ensures P (x >>= k) R := by
  have hensures : Ensures P x fun _ ↦ P := fun s hs _ _ ↦ hx s hs
  exact hensures.bind hk

/-- If an action fails, then its error and the state that it leaves have a property. -/
def FailsWith (P : Error → σ → Prop) (x : Action σ α) : Prop :=
  ∀ s e, (x s).result = .error e → P e (x s).state

namespace FailsWith

variable {P : Error → σ → Prop}

theorem of_ok {x : Action σ α} (h : ∀ s, ∃ a, (x s).result = .ok a) : FailsWith P x := by
  intro s e he
  obtain ⟨a, ha⟩ := h s
  rw [ha] at he
  cases he

theorem pure (a : α) : FailsWith P (pure a : Action σ α) := of_ok fun _ ↦ ⟨a, rfl⟩

theorem gets (f : σ → α) : FailsWith P (gets f) := of_ok fun s ↦ ⟨f s, rfl⟩

theorem modify (f : σ → σ) : FailsWith P (modify f) := of_ok fun _ ↦ ⟨(), rfl⟩

theorem fail {e : Error} (h : ∀ s, P e s) : FailsWith P (fail e : Action σ α) := by
  intro s e he
  cases he
  exact h s

theorem bind {x : Action σ α} {k : α → Action σ β} (hx : FailsWith P x)
    (hk : ∀ a, FailsWith P (k a)) : FailsWith P (x >>= k) := by
  intro s e he
  cases hr : (x s).result with
  | error d =>
    rw [bind_of_error hr] at he ⊢
    cases he
    exact hx s _ hr
  | ok a =>
    rw [bind_of_ok hr] at he ⊢
    exact hk a _ e he

theorem map {x : Action σ α} (f : α → β) (hx : FailsWith P x) : FailsWith P (f <$> x) := by
  rw [map_eq_pure_bind]
  exact hx.bind fun _ ↦ pure _

theorem ite {b : Prop} [Decidable b] {x y : Action σ α} (hx : FailsWith P x)
    (hy : FailsWith P y) : FailsWith P (if b then x else y) := by
  split
  · exact hx
  · exact hy

/-- An action that is repeated fails only as it fails by itself. -/
theorem replicate {x : Action σ Unit} (hx : FailsWith P x) (n : Nat) :
    FailsWith P (replicate n x) := by
  induction n with
  | zero => exact pure ()
  | succ n ih =>
    rw [replicate_succ]
    exact hx.bind fun _ ↦ ih

end FailsWith

/-- An action writes no notes. -/
def Silent (x : Action σ α) : Prop := ∀ s, (x s).log = []

namespace Silent

theorem pure (a : α) : Silent (pure a : Action σ α) := fun _ ↦ rfl

theorem gets (f : σ → α) : Silent (gets f) := fun _ ↦ rfl

theorem modify (f : σ → σ) : Silent (modify f) := fun _ ↦ rfl

theorem require (p : Prop) [Decidable p] (e : Error) : Silent (require p e : Action σ Unit) := by
  intro s
  rw [Action.require]
  split
  · rfl
  · rfl

theorem bind {x : Action σ α} {k : α → Action σ β} (hx : Silent x) (hk : ∀ a, Silent (k a)) :
    Silent (x >>= k) := by
  intro s
  cases hr : (x s).result with
  | error e =>
    rw [bind_of_error hr]
    exact hx s
  | ok a =>
    rw [bind_of_ok hr]
    exact List.append_eq_nil_iff.2 ⟨hx s, hk a _⟩

theorem map {x : Action σ α} (f : α → β) (hx : Silent x) : Silent (f <$> x) := by
  intro s
  rw [map_apply]
  exact hx s

theorem on {part : σ → τ} {replace : τ → σ → σ} {x : Action τ α} (hx : Silent x) :
    Silent (on part replace x) := fun s ↦ hx (part s)

end Silent

/-- An action takes no notice of a change of the state, and leaves it as it is. -/
def Ignores (f : σ → σ) (x : Action σ α) : Prop :=
  ∀ s, x (f s) = ⟨f (x s).state, (x s).result, (x s).log⟩

namespace Ignores

variable {f : σ → σ}

theorem pure (a : α) : Ignores f (pure a : Action σ α) := fun _ ↦ rfl

theorem gets {g : σ → α} (h : ∀ s, g (f s) = g s) : Ignores f (gets g) := by
  intro s
  simp only [gets_apply, h]

theorem modify {g : σ → σ} (h : ∀ s, g (f s) = f (g s)) : Ignores f (modify g) := by
  intro s
  simp only [modify_apply, h]

theorem bind {x : Action σ α} {k : α → Action σ β} (hx : Ignores f x)
    (hk : ∀ a, Ignores f (k a)) : Ignores f (x >>= k) := by
  intro s
  cases hr : (x s).result with
  | error e => rw [bind_of_error hr, bind_of_error (by rw [hx s, hr]), hx s]
  | ok a => rw [bind_of_ok hr, bind_of_ok (by rw [hx s, hr]), hx s, hk a]

theorem map {x : Action σ α} (g : α → β) (hx : Ignores f x) : Ignores f (g <$> x) := by
  intro s
  rw [map_apply, map_apply, hx s]

/-- A change elsewhere is ignored by what happens to a part of the state. -/
theorem on {part : σ → τ} {replace : τ → σ → σ} {x : Action τ α}
    (hpart : ∀ s, part (f s) = part s) (hreplace : ∀ t s, replace t (f s) = f (replace t s)) :
    Ignores f (on part replace x) := by
  intro s
  simp only [on_apply, hpart, hreplace]

end Ignores

/-- An action that does nothing may be repeated. -/
theorem replicate_eq_self {x : Action σ Unit} {s : σ} (hx : x s = ⟨s, .ok (), []⟩) (n : Nat) :
    replicate n x s = ⟨s, .ok (), []⟩ := by
  induction n with
  | zero => rfl
  | succ n ih => rw [replicate_succ, bind_of_ok (by rw [hx]), hx, ih, List.append_nil]

end Action

namespace Interpreter

variable {i : Interpreter}

/-- The interpreter after a list of commands, whether or not each of them succeeds. -/
def performAll (commands : List Command) (i : Interpreter) : Interpreter :=
  commands.foldl (fun i c ↦ (perform c i).state) i

@[simp] theorem performAll_nil (i : Interpreter) : performAll [] i = i := rfl

@[simp] theorem performAll_cons (c : Command) (commands : List Command) (i : Interpreter) :
    performAll (c :: commands) i = performAll commands (perform c i).state := rfl

/-- What every permitted command preserves is preserved by a run of them. -/
theorem performAll_invariant {P : Interpreter → Prop} {permitted : Command → Prop}
    (hstep : ∀ c, permitted c → Action.Preserves P (perform c)) {commands : List Command}
    (hc : ∀ c ∈ commands, permitted c) (hi : P i) : P (performAll commands i) := by
  induction commands generalizing i with
  | nil => exact hi
  | cons c commands ih =>
    obtain ⟨hhead, htail⟩ := List.forall_mem_cons.1 hc
    exact ih htail (hstep c hhead i hi)

/-- The answer to each command of a run, with the notes that are written on the way. -/
def transcript : List Command → Interpreter → List (Except Error Reply × List Note)
  | [], _ => []
  | c :: commands, i =>
    ((perform c i).result, (perform c i).log) :: transcript commands (perform c i).state

/-- All notes of a run. -/
def notes (commands : List Command) (i : Interpreter) : List Note :=
  (transcript commands i).flatMap Prod.snd

@[simp] theorem notes_nil (i : Interpreter) : notes [] i = [] := rfl

@[simp] theorem notes_cons (c : Command) (commands : List Command) (i : Interpreter) :
    notes (c :: commands) i = (perform c i).log ++ notes commands (perform c i).state := rfl

/-- An interpreter in the middle of a time step, when some turns have been made, be they as many as
the time step has or more.  None of their instructions has been counted yet. -/
def partway (dt : Binary64) (turns : Nat) (i : Interpreter) : Outcome Batch Unit :=
  Action.replicate turns Batch.turn (.start (accrue dt i).state)

/-- What a run of commands reaches, with the notes since its beginning: the interpreter behind the
last command, and in the middle of a time step that follows on it. -/
inductive Reaches (i : Interpreter) (commands : List Command) : Interpreter → List Note → Prop
  | behind : Reaches i commands (performAll commands i) (notes commands i)
  | within (dt : Binary64) (turns : Nat) :
      Reaches i commands (partway dt turns (performAll commands i)).state.interpreter
        (notes commands i ++ (partway dt turns (performAll commands i)).log)

/-- A new interpreter has a new processor and clocks of the given rates. -/
theorem eq_of_new {s : Settings} {source : Source} {i : Interpreter} (h : new s source = .ok i) :
    ∃ pacer, Pacer.ofRates s.clockRate s.timerRate = .ok pacer ∧
      i = ⟨.initial source s.debug s.legacyStore, pacer, false⟩ := by
  unfold new at h
  cases hp : Pacer.ofRates s.clockRate s.timerRate with
  | error refusal =>
    rw [hp] at h
    cases h
  | ok pacer =>
    rw [hp] at h
    cases h
    exact ⟨pacer, rfl, rfl⟩

/-! ## Time steps

The instructions of a time step are counted at its end, by whichever way it ends.  No turn looks at
the count, so a time step leads to what it would lead to if every turn counted its instruction. -/

/-- Counts an instruction and makes the timer ticks that fall to it. -/
def endTurn (i : Interpreter) : Interpreter := (i.countInstructions 1).payTimers

/-- A turn that counts its instruction by itself. -/
def turn : Action Interpreter Unit := do
  let _ ← stepProcessor
  Action.modify endTurn

theorem payTimers_countInstructions (n : Nat) (i : Interpreter) :
    (i.countInstructions n).payTimers = i.payTimers.countInstructions n := by
  simp only [payTimers, Pacer.payTimers, Pacer.settle_eq]
  rfl

/-- The processor knows nothing of the instructions that are counted. -/
theorem ignores_stepProcessor (n : Nat) :
    Action.Ignores (countInstructions n) stepProcessor := fun _ ↦ rfl

/-- A turn of a batch is a turn when the instructions are counted. -/
theorem turn_close (b : Batch) :
    turn b.close = ⟨(Batch.turn b).state.close, (Batch.turn b).result, (Batch.turn b).log⟩ := by
  have hstep := ignores_stepProcessor b.executed b.interpreter
  have hbatch : (Batch.onInterpreter stepProcessor b).result =
      (stepProcessor b.interpreter).result := rfl
  cases hresult : (stepProcessor b.interpreter).result with
  | error e =>
    rw [turn, Batch.turn, Action.bind_of_error (hbatch.trans hresult),
      Action.bind_of_error (by rw [Batch.close, hstep, hresult])]
    rw [Batch.close, hstep]
    rfl
  | ok answer =>
    rw [turn, Batch.turn, Action.bind_of_ok (hbatch.trans hresult),
      Action.bind_of_ok (by rw [Batch.close, hstep, hresult])]
    rw [Batch.close, hstep]
    simp only [Action.modify_apply, endTurn, payTimers_countInstructions]
    rfl

theorem replicate_turn_close (n : Nat) (b : Batch) :
    Action.replicate n turn b.close =
      ⟨(Action.replicate n Batch.turn b).state.close, (Action.replicate n Batch.turn b).result,
        (Action.replicate n Batch.turn b).log⟩ := by
  induction n generalizing b with
  | zero => rfl
  | succ n ih =>
    have hturn := turn_close b
    rw [Action.replicate_succ, Action.replicate_succ]
    cases hresult : (Batch.turn b).result with
    | error e =>
      rw [Action.bind_of_error hresult, Action.bind_of_error (by rw [hturn, hresult]), hturn]
    | ok answer =>
      rw [Action.bind_of_ok hresult, Action.bind_of_ok (by rw [hturn, hresult]), hturn, ih]

/-- Turns that all succeed are as many instructions. -/
theorem executed_replicate_turn {n : Nat} {b : Batch}
    (h : (Action.replicate n Batch.turn b).result = .ok ()) :
    (Action.replicate n Batch.turn b).state.executed = b.executed + n := by
  induction n generalizing b with
  | zero => rfl
  | succ n ih =>
    rw [Action.replicate_succ] at h ⊢
    cases hresult : (Batch.turn b).result with
    | error e =>
      rw [Action.bind_of_error hresult] at h
      cases h
    | ok answer =>
      rw [Action.bind_of_ok hresult] at h ⊢
      have hone : (Batch.turn b).state.executed = b.executed + 1 := by
        cases hstep : (Batch.onInterpreter stepProcessor b).result with
        | error e =>
          rw [Batch.turn, Action.bind_of_error hstep] at hresult
          cases hresult
        | ok answer =>
          rw [Batch.turn, Action.bind_of_ok hstep]
          rfl
      rw [ih h, hone]
      omega

/-- A batch is its turns.  However they end, their instructions are counted, and if all succeed
their number is the answer. -/
theorem batch_apply (n : Nat) (i : Interpreter) :
    batch n i =
      ⟨(Action.replicate n Batch.turn (.start i)).state.close,
        (Action.replicate n Batch.turn (.start i)).result.map fun _ ↦ n,
        (Action.replicate n Batch.turn (.start i)).log⟩ := by
  rw [batch, Action.on_apply]
  cases hresult : (Action.replicate n Batch.turn (.start i)).result with
  | error e =>
    rw [Action.bind_of_error hresult]
    rfl
  | ok answer =>
    rw [Action.bind_of_ok hresult]
    have hcount := executed_replicate_turn hresult
    simp only [Action.gets_apply, hcount, Except.map, List.append_nil]
    rw [show (Batch.start i).executed + n = n from Nat.zero_add n]

/-- A batch is a number of turns that count their instructions. -/
theorem batch_eq_replicate (n : Nat) : batch n = (fun _ ↦ n) <$> Action.replicate n turn := by
  funext i
  have hturns := replicate_turn_close n (.start i)
  rw [show (Batch.start i).close = i from rfl] at hturns
  rw [Action.map_apply, hturns, batch_apply]

/-- A time step adds to the account, takes the whole instructions out of it, and makes as many
turns. -/
theorem advance_eq (dt : Binary64) :
    advance dt = (do
      if dt.isNegative then Action.fail (.refusal (.negativeTime dt))
      else if (← Action.gets fun i ↦ i.processor.isHalted) then pure 0
      else
        let count ← accrue dt
        Action.replicate count turn
        pure count) := by
  simp only [advance, batch_eq_replicate, map_eq_pure_bind]

/-- In the middle of a time step only the instructions of that step are not counted yet. -/
theorem close_partway (dt : Binary64) (turns : Nat) (i : Interpreter) :
    (partway dt turns i).state.close = (Action.replicate turns turn (accrue dt i).state).state :=
  (congrArg Outcome.state (replicate_turn_close turns (.start (accrue dt i).state))).symm

theorem log_partway (dt : Binary64) (turns : Nat) (i : Interpreter) :
    (partway dt turns i).log = (Action.replicate turns turn (accrue dt i).state).log :=
  (congrArg Outcome.log (replicate_turn_close turns (.start (accrue dt i).state))).symm

/-- An instruction is followed by some timer ticks, which the clocks count. -/
theorem payTimers_eq_ticks (i : Interpreter) :
    ∃ n, i.payTimers.machine = Nat.repeat Machine.countDown n i.machine ∧
      i.payTimers.pacer.ticks = i.pacer.ticks + n := by
  refine ⟨(i.pacer.phase + i.pacer.timerRate) / i.pacer.clockRate, ?_⟩
  rw [payTimers, Pacer.payTimers, Pacer.settle_eq]
  exact ⟨rfl, rfl⟩

/-- What a timer tick keeps of a machine, the ticks that follow on an instruction keep. -/
theorem invariant_payTimers {P : Machine → Prop} (htick : ∀ m, P m → P m.countDown)
    (hi : P i.machine) : P i.payTimers.machine := by
  obtain ⟨n, hn, -⟩ := payTimers_eq_ticks i
  rw [hn]
  clear hn
  induction n with
  | zero => exact hi
  | succ n ih => exact htick _ ih

theorem invariant_endTurn {P : Machine → Prop} (htick : ∀ m, P m → P m.countDown)
    (hi : P i.machine) : P i.endTurn.machine :=
  invariant_payTimers (i := i.countInstructions 1) htick hi

section TimeSteps

open ChipEight.Action (Preserves)

variable {P : Interpreter → Prop} {dt : Binary64}

theorem invariant_turn (hstep : Preserves P stepProcessor) (hend : ∀ i, P i → P i.endTurn) :
    Preserves P turn :=
  hstep.bind fun _ i hi ↦ hend i hi

/-- What turns and the account of time preserve is preserved by a time step. -/
theorem invariant_advance (hturn : Preserves P turn) (haccrue : Preserves P (accrue dt)) :
    Preserves P (advance dt) := by
  rw [advance_eq]
  refine (Preserves.fail _).ite ((Preserves.gets _).bind fun _ ↦ (Preserves.pure _).ite ?_)
  exact haccrue.bind fun count ↦ (hturn.replicate count).bind fun _ ↦ .pure _

/-- It also holds in the middle of a time step, when the instructions so far are counted. -/
theorem invariant_partway (hturn : Preserves P turn) (haccrue : Preserves P (accrue dt))
    (turns : Nat) (hi : P i) : P (partway dt turns i).state.close := by
  rw [close_partway]
  exact hturn.replicate turns _ (haccrue i hi)

theorem invariant_tick (hadvance : Preserves P (advance dt)) : Preserves P (tick dt) :=
  (Preserves.gets _).bind fun _ ↦ hadvance.ite (.pure _)

end TimeSteps

/-! ## What single commands leave behind -/

section Requests

variable {α : Type} {reply : α → Reply} {x : Action Machine α}

/-- A request does with the machine what it says, and touches nothing else. -/
theorem ask_apply (reply : α → Reply) (x : Action Machine α) (i : Interpreter) :
    ask reply x i =
      ⟨i.withMachine (x i.machine).state, (x i.machine).result.map reply, (x i.machine).log⟩ := by
  rw [ask, Action.map_apply]
  rfl

theorem ask_of_ok {m : Machine} {a : α} (h : x i.machine = ⟨m, .ok a, []⟩) :
    ask reply x i = ⟨i.withMachine m, .ok (reply a), []⟩ := by
  rw [ask_apply, h]
  rfl

theorem ask_of_error {e : Error} (h : x i.machine = ⟨i.machine, .error e, []⟩) :
    ask reply x i = ⟨i, .error e, []⟩ := by
  rw [ask_apply, h]
  rfl

theorem state_ask (reply : α → Reply) (x : Action Machine α) (i : Interpreter) :
    (ask reply x i).state = i.withMachine (x i.machine).state := by
  rw [ask_apply]

end Requests

/-- The interpreter with other keys down. -/
def withKeypad (i : Interpreter) (k : Keypad) : Interpreter :=
  i.withMachine { i.machine with keypad := k }

/-- A request to the keypad changes nothing else. -/
theorem state_ask_onKeypad {α : Type} (reply : α → Reply) (x : Action Keypad α) (i : Interpreter) :
    (ask reply (Machine.onKeypad x) i).state = i.withKeypad (x i.machine.keypad).state :=
  state_ask reply _ i

/-! ## Loads -/

theorem loadMachine_of_error {program font : Bytes} {e : Error}
    (h : Machine.load program font i.machine = ⟨i.machine, .error e, []⟩) :
    loadMachine program font i = ⟨i, .error e, []⟩ := by
  rw [loadMachine, onMachine, Action.on_apply, h]
  rfl

theorem loadMachine_of_ok {program font : Bytes} {m : Machine} {log : List Note}
    (h : Machine.load program font i.machine = ⟨m, .ok (), log⟩) :
    loadMachine program font i = ⟨i.withMachine m, .ok (), log⟩ := by
  rw [loadMachine, onMachine, Action.on_apply, h]

/-- A load that the machine refuses changes nothing. -/
theorem load_of_error {program font : Bytes} {e : Error}
    (h : Machine.load program font i.machine = ⟨i.machine, .error e, []⟩) :
    load program font i = ⟨i, .error e, []⟩ := by
  rw [load, Action.bind_of_error (by rw [loadMachine_of_error h]), loadMachine_of_error h]

/-- A program that does not fit is refused, and nothing changes. -/
theorem load_of_too_large {program font : Bytes} (idle : i.machine.busy = false)
    (hfont : font.length = glyphCount * glyphSize) (h : maxProgramSize < program.length) :
    load program font i =
      ⟨i, .error (.ofCause (.programTooLarge program.length maxProgramSize)), []⟩ :=
  load_of_error (Machine.load_of_too_large idle hfont h)

/-- A load that the machine accepts starts everything afresh. -/
theorem load_of_ok {program font : Bytes} {m : Machine} {log : List Note}
    (h : Machine.load program font i.machine = ⟨m, .ok (), log⟩) :
    load program font i =
      ⟨{ (i.withMachine m).resetProcessor.resetPacer with loaded := true }, .ok (), log⟩ := by
  rw [load, Action.bind_of_ok (by rw [loadMachine_of_ok h]), loadMachine_of_ok h]
  simp

end Interpreter

end ChipEight
