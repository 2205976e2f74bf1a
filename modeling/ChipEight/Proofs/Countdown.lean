import ChipEight.Proofs.History

/-!
# Timers count down from their latest setting

A timer holds what the program has last put into it, less the ticks that have been made since then,
and nothing once there have been as many.  The ticks fall in the middle of time steps, several to an
instruction or none, and each of them is counted by the clocks; so a setting is kept with the ticks
that had been made by then.
-/

namespace ChipEight

/-- The two timers. -/
inductive Timer where
  | delay
  | sound

/-- What a program has put into a timer, and the ticks that had been made by then. -/
structure Setting where
  value : Nat
  ticks : Nat
deriving DecidableEq

/-- What is left of the latest setting of a timer, if there is one, when so many ticks have been
made. -/
def Setting.left : Option Setting → Nat → Nat
  | none, _ => 0
  | some s, ticks => s.value - (ticks - s.ticks)

namespace Timer

/-- What a timer holds. -/
def value : Timer → View → Nat
  | .delay, v => v.delay
  | .sound, v => v.sound

/-- The operation that sets a timer. -/
def setter : Timer → Opcode
  | .delay => .setDelay
  | .sound => .setSound

/-- The latest setting of a timer behind an event, given the one before it.  A program that is
loaded has made none. -/
def settingAfter (t : Timer) (latest : Option Setting) (e : Event) : Option Setting :=
  match e with
  | .loaded _ => none
  | .stepped i =>
    match e.instruction? with
    | some ⟨op, w⟩ =>
      if op = t.setter then some ⟨i.machine.view.registers w.x, i.pacer.ticks⟩ else latest
    | none => latest

/-- The latest setting of a timer since a program was loaded. -/
def latestSetting (t : Timer) (events : List Event) : Option Setting :=
  events.foldl t.settingAfter none

/-- Of the instructions those that set a timer change it. -/
theorem value_after (t : Timer) (legacyStore : Bool) (i : Instruction) (byte : UInt8) (v : View) :
    t.value (Manual.after legacyStore i byte v) =
      if i.op = t.setter then v.registers i.word.x else t.value v := by
  obtain ⟨op, w⟩ := i
  cases t with
  | delay => cases op <;> rfl
  | sound => cases op <;> rfl

/-- Each tick takes one off, down to nothing. -/
theorem value_repeat_countDown (t : Timer) (n : Nat) (m : Machine) :
    t.value (Nat.repeat Machine.countDown n m).view = t.value m.view - n := by
  induction n with
  | zero => rfl
  | succ n ih =>
    have htick : t.value (Nat.repeat Machine.countDown n m).countDown.view =
        t.value (Nat.repeat Machine.countDown n m).view - 1 := by
      cases t with
      | delay => exact Machine.toNat_countDownFrom _
      | sound => exact Machine.toNat_countDownFrom _
    exact htick.trans (congrArg (· - 1) ih)

end Timer

namespace Interpreter

variable {i j : Interpreter} {t : Timer} {latest : Option Setting}

/-- A timer holds what is left of its latest setting, which has not been made in the future. -/
structure CountsFrom (t : Timer) (i : Interpreter) (latest : Option Setting) : Prop where
  value_eq : t.value i.machine.view = Setting.left latest i.pacer.ticks
  ticks_le : ∀ s ∈ latest, s.ticks ≤ i.pacer.ticks

namespace CountsFrom

theorem of_eq (h : i.CountsFrom t latest) (hvalue : t.value j.machine.view = t.value i.machine.view)
    (hticks : j.pacer.ticks = i.pacer.ticks) : j.CountsFrom t latest where
  value_eq := by rw [hvalue, hticks, h.value_eq]
  ticks_le := by
    rw [hticks]
    exact h.ticks_le

/-- A setting that has just been made. -/
theorem of_set {value : Nat} (hvalue : t.value i.machine.view = value) :
    i.CountsFrom t (some ⟨value, i.pacer.ticks⟩) where
  value_eq := by rw [hvalue, Setting.left, Nat.sub_self, Nat.sub_zero]
  ticks_le s hs := by
    cases hs
    exact Nat.le_refl _

/-- Without a setting a timer is at zero. -/
theorem of_zero (hvalue : t.value i.machine.view = 0) : i.CountsFrom t none where
  value_eq := hvalue
  ticks_le _ hs := nomatch hs

/-- A step sets the timer, or leaves it as it is. -/
theorem stepProcessor (h : i.CountsFrom t latest) :
    (stepProcessor i).state.CountsFrom t (t.settingAfter latest (.stepped i)) := by
  have hsteps := Processor.steps_step i.processor
  change CountsFrom t { i with processor := (Processor.step i.processor).state } _
  simp only [Timer.settingAfter, Event.instruction?, Interpreter.stepProcessor, onProcessor,
    Action.on_apply]
  generalize (Processor.step i.processor).state = q,
    (Processor.step i.processor).result = answer at hsteps
  cases hsteps with
  | halted _ => exact h
  | stopped _ _ => exact h.of_eq (by cases t <;> rfl) rfl
  | passed _ _ _ _ => exact h.of_eq (by cases t <;> rfl) rfl
  | @carriedOut k m _ _ _ _ hm =>
    have hvalue := hm ▸ t.value_after i.processor.legacyStore k i.processor.source.draw.1 _
    simp only
    split
    · next hk =>
      rw [if_pos hk] at hvalue
      exact of_set (i := { i with processor := i.processor.carriedOut k m }) hvalue
    · next hk =>
      rw [if_neg hk] at hvalue
      exact h.of_eq hvalue rfl

/-- Ticks are counted as they are made. -/
theorem payTimers (h : i.CountsFrom t latest) : i.payTimers.CountsFrom t latest := by
  obtain ⟨n, hmachine, hticks⟩ := payTimers_eq_ticks i
  constructor
  case value_eq =>
    rw [hmachine, t.value_repeat_countDown, hticks, h.value_eq]
    cases latest with
    | none => exact Nat.zero_sub n
    | some s =>
      have hle := h.ticks_le s rfl
      simp only [Setting.left]
      omega
  case ticks_le =>
    intro s hs
    rw [hticks]
    exact Nat.le_add_right_of_le (h.ticks_le s hs)

end CountsFrom

/-- What a timer holds goes back to its latest setting at every event. -/
theorem accounts_countsFrom (t : Timer) : Accounts t.settingAfter (CountsFrom t) where
  stepProcessor h := h.stepProcessor
  payTimers h := h.payTimers
  countInstructions _ h := h.of_eq rfl rfl
  withPending _ h := h.of_eq rfl rfl
  withKeypad _ h := h.of_eq (by cases t <;> rfl) rfl
  load _ _ _ := .of_zero (by cases t <;> rfl)

/-- A tone is to be heard as long as there have been fewer ticks than the sound timer was set to. -/
theorem soundActive_iff (h : i.CountsFrom .sound latest) :
    i.machine.soundActive = true ↔ ∃ s ∈ latest, i.pacer.ticks - s.ticks < s.value := by
  have hvalue : i.machine.sound.toNat = Setting.left latest i.pacer.ticks := h.value_eq
  rw [Machine.soundActive, decide_eq_true_iff, gt_iff_lt, UInt8.lt_iff_toNat_lt, hvalue]
  cases latest with
  | none => simp [Setting.left]
  | some s =>
    simp only [Setting.left, Option.mem_some_iff, exists_eq_left']
    exact Nat.sub_pos_iff_lt

/-- Timers count down.  Whatever a host does with a new interpreter, each timer holds what the
program has last put into it since it was loaded, less the ticks that have been made since then, and
nothing once there have been as many or if there was no such setting.  So a tone is to be heard as
long as there have been fewer. -/
theorem timers_count_down {s : Settings} {source : Source} (h : new s source = .ok i)
    {commands : List Command} (hc : ∀ c ∈ commands, c.Plays) :
    let j := performAll commands i
    let events := history commands i
    notes commands i = events.flatMap Event.notes ∧
    (∀ t : Timer,
      t.value j.machine.view = Setting.left (t.latestSetting events) j.pacer.ticks ∧
      ∀ s ∈ t.latestSetting events, s.ticks ≤ j.pacer.ticks) ∧
    (j.machine.soundActive = true ↔
      ∃ s ∈ Timer.sound.latestSetting events, j.pacer.ticks - s.ticks < s.value) := by
  intro j events
  have hcounts : ∀ t : Timer, j.CountsFrom t (t.latestSetting events) := by
    intro t
    refine (accounts_countsFrom t).performAll hc (.of_zero ?_)
    rw [machine_new h]
    cases t <;> rfl
  refine ⟨notes_eq_history hc i, fun t ↦ ?_, soundActive_iff (hcounts .sound)⟩
  exact ⟨(hcounts t).value_eq, (hcounts t).ticks_le⟩

/-- A program that sets the delay timer to nine and the sound timer to three. -/
def settingTimers : Bytes :=
  [0x60, 0x09, 0xF0, 0x15, 0x60, 0x03, 0xF0, 0x18, 0x12, 0x08]

/-- A new interpreter whose timers are faster than its clock. -/
def quickTimers : Interpreter :=
  ⟨.initial default false false, .start 2 5 (Nat.succ_pos 1) (Nat.succ_pos 4), false⟩

/-- What a host does with it. -/
def quickPlay : List Command :=
  [.load settingTimers builtInFont, .tick (.finite 1), .setKey 0xA true, .tick .nan, .step]

/-- Some ticks follow on the setting at once, and later ones come in the middle of a time step. -/
theorem delay_counts_from_nine :
    Timer.delay.value (performAll quickPlay quickTimers).machine.view = 6 := by
  have hnew : new { clockRate := 2, timerRate := 5 } default = .ok quickTimers := rfl
  have hplays : ∀ c ∈ quickPlay, c.Plays := by
    simp only [quickPlay, List.forall_mem_cons]
    exact ⟨.load _ _, .tick _, .setKey _ _, .tick _, .step, List.forall_mem_nil _⟩
  obtain ⟨-, hcounts, -⟩ := timers_count_down hnew hplays
  obtain ⟨hlatest, hticks⟩ :
      Timer.delay.latestSetting (history quickPlay quickTimers) = some ⟨9, 2⟩ ∧
      (performAll quickPlay quickTimers).pacer.ticks = 5 := by
    decide +kernel
  rw [(hcounts .delay).1, hlatest, hticks]
  rfl

end Interpreter

end ChipEight
