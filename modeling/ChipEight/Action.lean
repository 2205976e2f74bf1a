import ChipEight.Error
import ChipEight.Note

/-!
# Actions

An action takes a state to an outcome: the next state, an answer or an error, and the notes written
on the way. An error keeps the state and the notes that were there when it arose. `replicate`
repeats an action until it fails; it is `n` actions in a row.
-/

namespace ChipEight

/-- What an action leaves behind. -/
structure Outcome (σ α : Type) where
  state : σ
  result : Except Error α
  log : List Note

/-- A function from a state to an outcome. -/
def Action (σ α : Type) := σ → Outcome σ α

namespace Action

variable {σ τ α β γ : Type}

/-- Gives an answer and does nothing else. -/
protected def pure (a : α) : Action σ α := fun s ↦ ⟨s, .ok a, []⟩

/-- One action, and with its answer another. -/
protected def bind (x : Action σ α) (k : α → Action σ β) : Action σ β := fun s ↦
  let first := x s
  match first.result with
  | .error e => ⟨first.state, .error e, first.log⟩
  | .ok a =>
    let second := k a first.state
    ⟨second.state, second.result, first.log ++ second.log⟩

instance : Monad (Action σ) where
  pure := Action.pure
  bind := Action.bind

/-- The outcome of a bind whose first action succeeds. -/
theorem bind_of_ok {x : Action σ α} {k : α → Action σ β} {s : σ} {a : α}
    (h : (x s).result = .ok a) :
    (x >>= k) s = ⟨(k a (x s).state).state, (k a (x s).state).result,
      (x s).log ++ (k a (x s).state).log⟩ := by
  change Action.bind x k s = _
  simp only [Action.bind, h]

/-- The outcome of a bind whose first action fails. -/
theorem bind_of_error {x : Action σ α} {k : α → Action σ β} {s : σ} {e : Error}
    (h : (x s).result = .error e) :
    (x >>= k) s = ⟨(x s).state, .error e, (x s).log⟩ := by
  change Action.bind x k s = _
  simp only [Action.bind, h]

@[simp] theorem pure_apply (a : α) (s : σ) : (pure a : Action σ α) s = ⟨s, .ok a, []⟩ := rfl

theorem map_id_action (x : Action σ α) : id <$> x = x := by
  funext s
  change Action.bind x Action.pure s = x s
  simp only [Action.bind, Action.pure]
  rcases h : x s with ⟨s', _ | a, log⟩ <;> simp

theorem pure_bind_action (a : α) (k : α → Action σ β) : pure a >>= k = k a := by
  funext s
  change Action.bind (Action.pure a) k s = k a s
  simp [Action.bind, Action.pure]

theorem bind_assoc_action (x : Action σ α) (k : α → Action σ β) (l : β → Action σ γ) :
    x >>= k >>= l = x >>= fun a ↦ k a >>= l := by
  funext s
  change Action.bind (Action.bind x k) l s = Action.bind x (fun a ↦ Action.bind (k a) l) s
  simp only [Action.bind]
  rcases x s with ⟨s', _ | a, log⟩
  · rfl
  · simp only
    rcases k a s' with ⟨s'', _ | b, log'⟩
    · rfl
    · simp

instance : LawfulMonad (Action σ) :=
  LawfulMonad.mk' (Action σ) map_id_action pure_bind_action bind_assoc_action

/-- Stops with an error. -/
def fail (e : Error) : Action σ α := fun s ↦ ⟨s, .error e, []⟩

/-- The state. -/
def get : Action σ σ := fun s ↦ ⟨s, .ok s, []⟩

/-- Changes the state. -/
def modify (f : σ → σ) : Action σ Unit := fun s ↦ ⟨f s, .ok (), []⟩

/-- An answer that is read off the state. -/
def gets (f : σ → α) : Action σ α := fun s ↦ ⟨s, .ok (f s), []⟩

/-- Writes a note. -/
def note (n : Note) : Action σ Unit := fun s ↦ ⟨s, .ok (), [n]⟩

/-- An answer or an error that has nothing to do with the state. -/
def ofExcept (x : Except Error α) : Action σ α := fun s ↦ ⟨s, x, []⟩

/-- Goes on only under a condition, and stops with an error otherwise. -/
def require (p : Prop) [Decidable p] (e : Error) : Action σ Unit := if p then pure () else fail e

/-- An action with another one in reserve, which takes over with the error where the first one
fails. What the first one did to the state stays done. -/
def recover (x : Action σ α) (handle : Error → Action σ α) : Action σ α := fun s ↦
  let first := x s
  match first.result with
  | .ok a => ⟨first.state, .ok a, first.log⟩
  | .error e =>
    let second := handle e first.state
    ⟨second.state, second.result, first.log ++ second.log⟩

/-- An action and then a change of the state, which is made whether or not the action succeeds. -/
def afterwards (x : Action σ α) (f : σ → σ) : Action σ α := fun s ↦
  let o := x s
  ⟨f o.state, o.result, o.log⟩

/-- An action on a part of the state. -/
def on (part : σ → τ) (replace : τ → σ → σ) (x : Action τ α) : Action σ α := fun s ↦
  let o := x (part s)
  ⟨replace o.state s, o.result, o.log⟩

@[simp] theorem fail_apply (e : Error) (s : σ) : (fail e : Action σ α) s = ⟨s, .error e, []⟩ := rfl

@[simp] theorem get_apply (s : σ) : get s = ⟨s, .ok s, []⟩ := rfl

@[simp] theorem modify_apply (f : σ → σ) (s : σ) : modify f s = ⟨f s, .ok (), []⟩ := rfl

@[simp] theorem gets_apply (f : σ → α) (s : σ) : gets f s = ⟨s, .ok (f s), []⟩ := rfl

@[simp] theorem note_apply (n : Note) (s : σ) : note n s = ⟨s, .ok (), [n]⟩ := rfl

@[simp] theorem on_apply (part : σ → τ) (replace : τ → σ → σ) (x : Action τ α) (s : σ) :
    on part replace x s =
      ⟨replace (x (part s)).state s, (x (part s)).result, (x (part s)).log⟩ := rfl

@[simp] theorem afterwards_apply (x : Action σ α) (f : σ → σ) (s : σ) :
    afterwards x f s = ⟨f (x s).state, (x s).result, (x s).log⟩ := rfl

theorem gets_bind (f : σ → α) (k : α → Action σ β) (s : σ) : (gets f >>= k) s = k (f s) s := rfl

/-- Nothing takes over from an action that succeeds. -/
theorem recover_of_ok {x : Action σ α} {s : σ} {a : α} (handle : Error → Action σ α)
    (h : (x s).result = .ok a) : recover x handle s = x s := by
  simp only [recover, h]
  rw [← h]

/-- The reserve starts from where the first action failed. -/
theorem recover_of_error {x : Action σ α} {s : σ} {e : Error} (handle : Error → Action σ α)
    (h : (x s).result = .error e) :
    recover x handle s = ⟨(handle e (x s).state).state, (handle e (x s).state).result,
      (x s).log ++ (handle e (x s).state).log⟩ := by
  simp only [recover, h]

/-- A function on the answer touches neither the state nor the notes. -/
@[simp] theorem map_apply (f : α → β) (x : Action σ α) (s : σ) :
    (f <$> x) s = ⟨(x s).state, (x s).result.map f, (x s).log⟩ := by
  change Action.bind x (fun a ↦ Action.pure (f a)) s = _
  simp only [Action.bind, Action.pure]
  rcases x s with ⟨s', _ | a, log⟩ <;> simp [Except.map]

theorem state_map (f : α → β) (x : Action σ α) (s : σ) : ((f <$> x) s).state = (x s).state := by
  rw [map_apply]

theorem result_map (f : α → β) (x : Action σ α) (s : σ) :
    ((f <$> x) s).result = (x s).result.map f := by
  rw [map_apply]

@[simp] theorem ofExcept_apply (x : Except Error α) (s : σ) :
    (ofExcept x : Action σ α) s = ⟨s, x, []⟩ := rfl

/-- What follows on a condition that holds. -/
theorem require_bind_of_pos {p : Prop} [Decidable p] (h : p) (e : Error)
    (k : Unit → Action σ α) : require p e >>= k = k () := by
  rw [require, if_pos h, pure_bind]

/-- Nothing follows on a condition that does not hold. -/
theorem require_bind_of_neg {p : Prop} [Decidable p] (h : ¬ p) (e : Error)
    (k : Unit → Action σ α) (s : σ) : (require p e >>= k) s = ⟨s, .error e, []⟩ := by
  rw [require, if_neg h]
  rfl

/-- Repeats an action, with the notes so far in hand. -/
def replicateFrom (x : Action σ Unit) (log : Array Note) (s : σ) : Nat → Outcome σ Unit
  | 0 => ⟨s, .ok (), log.toList⟩
  | n + 1 =>
    let o := x s
    match o.result with
    | .error e => ⟨o.state, .error e, (log ++ o.log).toList⟩
    | .ok () => replicateFrom x (log ++ o.log) o.state n

/-- Repeats an action `n` times, or until it fails. -/
def replicate (n : Nat) (x : Action σ Unit) : Action σ Unit := fun s ↦ replicateFrom x #[] s n

theorem replicateFrom_eq (x : Action σ Unit) (log : Array Note) (s : σ) (n : Nat) :
    replicateFrom x log s n =
      { replicate n x s with log := log.toList ++ (replicate n x s).log } := by
  induction n generalizing log s with
  | zero => simp [replicate, replicateFrom]
  | succ n ih =>
    simp only [replicate, replicateFrom]
    rcases x s with ⟨s', _ | a, log'⟩
    · simp
    · simp only
      rw [ih (log ++ log'), ih (#[] ++ log')]
      simp

@[simp] theorem replicate_zero (x : Action σ Unit) : replicate 0 x = pure () := rfl

/-- One action more is the action in front of the others. -/
theorem replicate_succ (x : Action σ Unit) (n : Nat) :
    replicate (n + 1) x = x >>= fun _ ↦ replicate n x := by
  funext s
  change replicate (n + 1) x s = Action.bind x (fun _ ↦ replicate n x) s
  simp only [replicate, replicateFrom, Action.bind]
  rcases x s with ⟨s', _ | a, log⟩
  · simp
  · simp only
    rw [replicateFrom_eq]
    simp [replicate]

end Action

end ChipEight
