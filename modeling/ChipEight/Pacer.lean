import ChipEight.Error
import ChipEight.Machine

/-!
# The two clocks

Instructions run at one rate and timers at another. Time goes into an account from which whole
instructions are taken, and what is left waits for the next step; every instruction pays its share
into the timers' account, from which whole ticks are taken. So the two clocks stay together at any
frame rate.
-/

namespace ChipEight

/-- The rates of the two clocks and how far each has come. -/
structure Pacer where
  /-- Instructions per second. -/
  clockRate : Nat
  /-- Timer ticks per second. -/
  timerRate : Nat
  clockRate_pos : 0 < clockRate
  timerRate_pos : 0 < timerRate
  /-- Time that waits to be spent, in instructions. -/
  pending : Binary64
  /-- Time since the last timer tick, in parts of a second of which there are
  `clockRate * timerRate`. -/
  phase : Nat
  /-- Instructions that have run. -/
  instructions : Nat
  /-- Timer ticks that have been made. -/
  ticks : Nat

namespace Pacer

/-- Both clocks at zero. -/
def start (clockRate timerRate : Nat) (hc : 0 < clockRate) (ht : 0 < timerRate) : Pacer :=
  ⟨clockRate, timerRate, hc, ht, 0, 0, 0, 0⟩

/-- The clocks with the given rates, which have to be positive. -/
def ofRates (clockRate timerRate : Int) : Except Refusal Pacer :=
  if h : 0 < clockRate ∧ 0 < timerRate then
    .ok (start clockRate.toNat timerRate.toNat (by omega) (by omega))
  else .error .ratesNotPositive

/-- Sets both clocks to zero. -/
def reset (p : Pacer) : Pacer := start p.clockRate p.timerRate p.clockRate_pos p.timerRate_pos

/-- One part in `rate`, in double precision. -/
def period? (rate : Nat) : Option Binary64 :=
  (Binary64.ofInt? rate).bind fun r ↦ r.toRat?.map fun x ↦ Binary64.ofRat (1 / x)

/-- A function that is applied once more may be applied first. -/
theorem repeat_succ_comm {α : Type} (f : α → α) (n : Nat) (a : α) :
    Nat.repeat f (n + 1) a = Nat.repeat f n (f a) := by
  induction n with
  | zero => rfl
  | succ n ih => exact congrArg f ih

/-- Makes timer ticks as long as the timers' account holds one. -/
def settle (p : Pacer) (machine : Machine) : Pacer × Machine :=
  if p.clockRate ≤ p.phase then
    settle { p with phase := p.phase - p.clockRate, ticks := p.ticks + 1 } machine.countDown
  else (p, machine)
termination_by p.phase
decreasing_by
  have := p.clockRate_pos
  simp_wf
  omega

/-- All whole ticks are taken out of the account at once. -/
theorem settle_eq (p : Pacer) (machine : Machine) :
    p.settle machine =
      ({ p with phase := p.phase % p.clockRate, ticks := p.ticks + p.phase / p.clockRate },
        Nat.repeat Machine.countDown (p.phase / p.clockRate) machine) := by
  fun_induction settle p machine with
  | case1 p machine h ih =>
    have hp := p.clockRate_pos
    rw [ih]
    have hdiv : p.phase / p.clockRate = (p.phase - p.clockRate) / p.clockRate + 1 :=
      Nat.div_eq_sub_div hp h
    have hmod : p.phase % p.clockRate = (p.phase - p.clockRate) % p.clockRate :=
      Nat.mod_eq_sub_mod h
    simp only [hdiv, hmod, Prod.mk.injEq, Pacer.mk.injEq, true_and]
    refine ⟨by omega, ?_⟩
    exact (repeat_succ_comm _ _ _).symm
  | case2 p machine h =>
    have h := Nat.lt_of_not_le h
    simp [Nat.div_eq_of_lt h, Nat.mod_eq_of_lt h, Nat.repeat]

/-- Pays the share of one instruction into the timers' account and makes the ticks that fall due. -/
def payTimers (p : Pacer) (machine : Machine) : Pacer × Machine :=
  settle { p with phase := p.phase + p.timerRate } machine

/-- The account with `dt` seconds added, and the number of whole instructions taken out of it. A sum
that is no finite number stays in the account and gives no number of instructions. -/
def accrue (p : Pacer) (dt : Binary64) : Except Refusal Nat × Pacer :=
  match Binary64.ofInt? p.clockRate with
  | none => (.error .integerTooLarge, p)
  | some rate =>
    match p.pending + dt * rate with
    | .finite x => (.ok (wholePart x).toNat, { p with pending := .ofRat (x - wholePart x) })
    | .nan => (.error .notANumber, { p with pending := .nan })
    | .infinity => (.error .infinite, { p with pending := .infinity })
    | .negInfinity => (.error .infinite, { p with pending := .negInfinity })

end Pacer

end ChipEight
