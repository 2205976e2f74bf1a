import ChipEight.Proofs.Step

/-!
# Steps under a schedule of keys

Between the steps of a processor the host presses and releases keys as it likes.  A schedule says
which keys are down at each step, and `Processor.played` what some steps under it lead to.  Two runs
are compared step by step: what one step keeps of two processors any number of them keeps.
-/

namespace ChipEight

/-- The outcome with another state. -/
def Outcome.mapState {σ τ α : Type} (f : σ → τ) (o : Outcome σ α) : Outcome τ α :=
  ⟨f o.state, o.result, o.log⟩

namespace Processor

variable {p q : Processor} {keys keys' : Nat → Keypad}

/-- The processor with other keys down. -/
def withKeypad (p : Processor) (k : Keypad) : Processor :=
  { p with machine := { p.machine with keypad := k } }

/-- The processor after some steps, when `keys n` are the keys that are down at step `n`. -/
def played (keys : Nat → Keypad) (p : Processor) : Nat → Processor
  | 0 => p
  | n + 1 => (step ((played keys p n).withKeypad (keys n))).state

/-- The processor as step `n` finds it. -/
def before (keys : Nat → Keypad) (p : Processor) (n : Nat) : Processor :=
  (played keys p n).withKeypad (keys n)

theorem played_succ (keys : Nat → Keypad) (p : Processor) (n : Nat) :
    played keys p (n + 1) = (step (before keys p n)).state := rfl

/-- What each step keeps, some of them in a row keep. -/
theorem played_invariant {P : Processor → Prop}
    (hstep : ∀ r k, P r → P (step (r.withKeypad k)).state) (h : P p) (n : Nat) :
    P (played keys p n) := by
  induction n with
  | zero => exact h
  | succ n ih => exact hstep _ _ ih

/-- What is kept of two runs by each of their steps is kept by some steps in a row. -/
theorem played_related {R : Processor → Processor → Prop} {n : Nat} (h : R p q)
    (hstep : ∀ k < n, R (played keys p k) (played keys' q k) →
      R (step (before keys p k)).state (step (before keys' q k)).state) :
    R (played keys p n) (played keys' q n) := by
  induction n with
  | zero => exact h
  | succ n ih => exact hstep n n.lt_succ_self (ih fun k hk ↦ hstep k (Nat.lt_succ_of_lt hk))

/-- A run of a processor that has been changed is the run of the processor, as long as its steps
take no notice of the change. -/
theorem played_map {f : Processor → Processor} (hf : ∀ r k, (f r).withKeypad k = f (r.withKeypad k))
    {n : Nat}
    (hstep : ∀ k < n, step (f (before keys p k)) = (step (before keys p k)).mapState f) :
    played keys (f p) n = f (played keys p n) := by
  refine played_related (R := fun r s ↦ s = f r) rfl fun k hk h ↦ ?_
  have hbefore : before keys (f p) k = f (before keys p k) := by rw [before, h, hf, before]
  rw [hbefore, hstep k hk]
  rfl

/-- A new processor with a program in its memory. -/
def holding (program : Bytes) : Processor :=
  let p := initial default false false
  { p with machine := { p.machine with memory := Memory.blank.splice startAddress program } }

end Processor

end ChipEight
