import ChipEight.Proofs.Loading
import ChipEight.Proofs.Spending

/-!
# Time steps in a row

A host that stops at the first error ends as one that goes on does, if what it leaves out would have
done nothing.  So it is with time steps: the error that ends them is a fault, and on a processor
that a fault has stopped they do nothing.  With a clock rate in range and a fraction of an
instruction in the account there is no other error, as long as a time step is no longer than a
second, since what it makes is then no more than the clock rate and a fraction.
-/

namespace ChipEight

open ChipEight.Action (FailsWith)

/-- A fault of the program that runs: it has the address of an instruction, and is not about the
size of a program. -/
def Fault.OfInstruction (f : Fault) : Prop :=
  (∃ address, f.address = some address) ∧ ∀ size limit, f.cause ≠ .programTooLarge size limit

/-- What stops a processor has nothing to do with the size of a program. -/
theorem Processor.Stops.ne_programTooLarge {p : Processor} {cause : Cause} (h : p.Stops cause)
    (size limit : Int) : cause ≠ .programTooLarge size limit := by
  cases h with
  | outside _ => exact nofun
  | straddling _ => exact nofun
  | unknown _ _ _ => exact nofun
  | obstacle _ _ ho => cases ho <;> exact nofun

namespace Interpreter

variable {i : Interpreter} {c : Command} {commands : List Command} {dt : Binary64} {t : Rat}

/-! ## Errors of a run -/

/-- The error that comes back in place of an answer. -/
def error? {α : Type} : Except Error α → Option Error
  | .ok _ => none
  | .error e => some e

/-- The errors of a run, in the order in which they arise. -/
def errors (commands : List Command) (i : Interpreter) : List Error :=
  (transcript commands i).filterMap fun answer ↦ error? answer.1

theorem errors_cons (c : Command) (commands : List Command) (i : Interpreter) :
    errors (c :: commands) i =
      (error? (perform c i).result).toList ++ errors commands (perform c i).state := by
  rw [errors, transcript, List.filterMap_cons]
  cases (perform c i).result with
  | ok r => rfl
  | error e => rfl

/-- A command that is granted and does nothing. -/
def Idle (c : Command) (i : Interpreter) : Prop := ∃ r, perform c i = ⟨i, .ok r, []⟩

/-- The outcome of an action is that of a run of commands: it fails if one of them does, and none of
them fails after that. -/
structure EndsAs (commands : List Command) (i : Interpreter) (o : Outcome Interpreter Unit) :
    Prop where
  state : performAll commands i = o.state
  errors : errors commands i = (error? o.result).toList
  notes : notes commands i = o.log

namespace EndsAs

theorem nil (i : Interpreter) : EndsAs [] i ⟨i, .ok (), []⟩ := ⟨rfl, rfl, rfl⟩

/-- Commands that do nothing may be left out. -/
theorem of_idle (h : ∀ c ∈ commands, Idle c i) : EndsAs commands i ⟨i, .ok (), []⟩ := by
  induction commands with
  | nil => exact .nil i
  | cons c commands ih =>
    obtain ⟨⟨r, hr⟩, htail⟩ := List.forall_mem_cons.1 h
    have hrest := ih htail
    constructor
    · rw [performAll_cons, hr, hrest.state]
    · rw [errors_cons, hr, hrest.errors]
      rfl
    · rw [notes_cons, hr, hrest.notes]
      rfl

/-- An action that does what the first command does, and then what the others do unless it has
failed.  If it has, then the others do nothing. -/
theorem cons {α : Type} {x : Action Interpreter α} {k : α → Action Interpreter Unit}
    {reply : α → Reply} (hc : perform c i = (reply <$> x) i)
    (hok : ∀ a, (x i).result = .ok a → EndsAs commands (x i).state (k a (x i).state))
    (herror : ∀ e, (x i).result = .error e → ∀ c ∈ commands, Idle c (x i).state) :
    EndsAs (c :: commands) i ((x >>= k) i) := by
  rw [Action.map_apply] at hc
  cases hr : (x i).result with
  | ok a =>
    rw [hr] at hc
    have hrest := hok a hr
    rw [Action.bind_of_ok hr]
    constructor
    · rw [performAll_cons, hc, hrest.state]
    · rw [errors_cons, hc, hrest.errors]
      rfl
    · rw [notes_cons, hc, hrest.notes]
  | error e =>
    rw [hr] at hc
    have hrest := EndsAs.of_idle (herror e hr)
    rw [Action.bind_of_error hr]
    constructor
    · rw [performAll_cons, hc, hrest.state]
    · rw [errors_cons, hc, hrest.errors]
      rfl
    · rw [notes_cons, hc, hrest.notes, List.append_nil]

end EndsAs

/-- The outcome of an action is that of a run of commands, and if it fails then with a fault of the
program that runs. -/
structure FaultsAs (commands : List Command) (i : Interpreter) (o : Outcome Interpreter Unit) :
    Prop extends EndsAs commands i o where
  ofInstruction : ∀ e, o.result = .error e → ∃ f, e = .fault f ∧ f.OfInstruction

namespace FaultsAs

theorem nil (i : Interpreter) : FaultsAs [] i ⟨i, .ok (), []⟩ := ⟨.nil i, nofun⟩

theorem cons {α : Type} {x : Action Interpreter α} {k : α → Action Interpreter Unit}
    {reply : α → Reply} (hc : perform c i = (reply <$> x) i)
    (hok : ∀ a, (x i).result = .ok a → FaultsAs commands (x i).state (k a (x i).state))
    (herror : ∀ e, (x i).result = .error e →
      (∀ c ∈ commands, Idle c (x i).state) ∧ ∃ f, e = .fault f ∧ f.OfInstruction) :
    FaultsAs (c :: commands) i ((x >>= k) i) where
  toEndsAs := .cons hc (fun a ha ↦ (hok a ha).toEndsAs) fun e he ↦ (herror e he).1
  ofInstruction := by
    cases hr : (x i).result with
    | ok a =>
      rw [Action.bind_of_ok hr]
      exact (hok a hr).ofInstruction
    | error e =>
      rw [Action.bind_of_error hr]
      rintro _ ⟨⟩
      exact (herror e hr).2

end FaultsAs

/-! ## Time steps that do nothing -/

theorem perform_tick (dt : Binary64) (i : Interpreter) :
    perform (.tick dt) i = (Reply.count <$> tick dt) i := rfl

theorem tick_of_loaded (h : i.loaded = true) : tick dt i = advance dt i := by
  rw [tick, Action.gets_bind, if_pos h]

/-- Without a program time does not run. -/
theorem tick_of_not_loaded (h : i.loaded = false) : tick dt i = ⟨i, .ok 0, []⟩ := by
  rw [tick, Action.gets_bind, if_neg (by simp [h])]
  rfl

theorem idle_tick_of_not_loaded (h : i.loaded = false) : Idle (.tick dt) i := by
  refine ⟨.count 0, ?_⟩
  rw [perform_tick, Action.map_apply, tick_of_not_loaded h]
  rfl

theorem idle_tick_of_isHalted (h : i.processor.isHalted = true) (hdt : dt.isNegative = false) :
    Idle (.tick dt) i := by
  refine ⟨.count 0, ?_⟩
  rw [perform_tick, Action.map_apply, tick_of_isHalted h hdt]
  rfl

/-! ## Time steps that are not refused -/

/-- An instruction that fails leaves a processor that is halted. -/
theorem failsWith_stepProcessor :
    FailsWith (fun e i ↦ (∃ f, e = .fault f ∧ f.OfInstruction) ∧ i.processor.isHalted = true)
      stepProcessor := by
  intro i e he
  obtain ⟨-, cause, hstops, rfl, hstate⟩ := Processor.stops_of_result_error he
  refine ⟨⟨_, rfl, ⟨_, rfl⟩, hstops.ne_programTooLarge⟩, ?_⟩
  change (Processor.step i.processor).state.isHalted = true
  rw [hstate]
  rfl

theorem failsWith_turn :
    FailsWith (fun e i ↦ (∃ f, e = .fault f ∧ f.OfInstruction) ∧ i.processor.isHalted = true)
      turn :=
  failsWith_stepProcessor.bind fun _ ↦ .modify _

/-- A program has been loaded, the clock rate is in range, and less than one instruction waits in
the account. -/
structure Ready (i : Interpreter) : Prop where
  loaded : i.loaded = true
  clockRate : Binary64.ofInt? i.pacer.clockRate ≠ none
  pending : i.HoldsFraction

/-- What has been loaded stays loaded. -/
theorem independent_loaded : Independent fun i ↦ i.loaded = true where
  withMachine _ _ h := h
  stepProcessor _ h := h
  endTurn _ h := h
  accrue _ _ h := h
  resetProcessor _ h := h
  resetPacer _ h := h
  loaded _ _ := rfl

namespace Ready

/-- An interpreter is ready after a load. -/
theorem of_justLoaded {s : Settings} {program font : Bytes} {before : Interpreter}
    (h : JustLoaded program font before i) (hs : i.HasSettings s)
    (hclock : Binary64.ofInt? s.clockRate ≠ none) : i.Ready where
  loaded := h.loaded
  clockRate := by rwa [hs.clockRate]
  pending := ⟨0, h.pending, le_rfl, zero_lt_one⟩

/-- A time step of at most a second makes a finite sum. -/
theorem sumsFinite (h : i.Ready) (ht₀ : 0 ≤ t) (ht₁ : t ≤ 1) : i.SumsFinite (.finite t) := by
  intro _ _ y hsum
  obtain ⟨p, hp, hp₀, hp₁⟩ := h.pending
  obtain ⟨rate, hrate, rfl⟩ := Option.map_eq_some_iff.1 hsum
  obtain ⟨rfl, hdigits, hrange⟩ := Binary64.eq_of_ofInt? hrate
  rw [Int.cast_natCast] at hdigits hrange ⊢
  have hr : 0 ≤ Format.binary64.onGrid i.pacer.clockRate :=
    Format.onGrid_nonneg (Nat.cast_nonneg _)
  generalize Format.binary64.onGrid i.pacer.clockRate = r at *
  rw [abs_of_nonneg hr] at hrange
  have hproduct := Binary64.ofRat_of_le (mul_nonneg ht₀ hr) hdigits hrange
    (mul_le_of_le_one_left hr ht₁)
  obtain ⟨hz, hzdigits, hzrange⟩ := Binary64.eq_of_ofRat hproduct
  have hz₀ : 0 ≤ Format.binary64.onGrid (t * r) := Format.onGrid_nonneg (mul_nonneg ht₀ hr)
  rw [abs_of_nonneg hz₀] at hzrange
  rw [Binary64.finite_mul_finite, hproduct, hp, Binary64.finite_add_finite]
  exact Binary64.exists_ofRat_add hp₀ hp₁ hz₀ hzdigits hzrange

theorem tick (h : i.Ready) (ht₀ : 0 ≤ t) (ht₁ : t ≤ 1) :
    (Interpreter.tick (.finite t) i).state.Ready := by
  rw [tick_of_loaded h.loaded]
  constructor
  · exact independent_loaded.hereditary.advance _ i h.loaded
  · rw [clockRate_advance]
    exact h.clockRate
  · exact holdsFraction_advance h.pending (h.sumsFinite ht₀ ht₁)

/-- What can go wrong in a time step is a fault that stops the processor. -/
theorem fault_of_tick {e : Error} (h : i.Ready) (ht₀ : 0 ≤ t) (ht₁ : t ≤ 1)
    (he : (Interpreter.tick (.finite t) i).result = .error e) :
    (∃ f, e = .fault f ∧ f.OfInstruction) ∧
      (Interpreter.tick (.finite t) i).state.processor.isHalted = true := by
  rw [tick_of_loaded h.loaded] at he ⊢
  have ho := advances_advance (.finite t) i
  generalize advance (.finite t) i = o at he ho
  cases ho with
  | backwards hdt => simp [not_lt.2 ht₀] at hdt
  | halted _ _ => cases he
  | rateOutOfRange _ _ hsum => exact absurd (Option.map_eq_none_iff.1 hsum) h.clockRate
  | notFinite refusal hdt running hsum hy =>
    obtain ⟨x, rfl⟩ := h.sumsFinite ht₀ ht₁ hdt running _ hsum
    cases hy
  | spent _ _ _ => exact ((failsWith_turn.replicate _).map _) _ e he

/-- Time steps in a row end with the last one or at a fault, and to go on after that does
nothing. -/
theorem faultsAs_ticks (h : i.Ready) (ht₀ : 0 ≤ t) (ht₁ : t ≤ 1) (n : Nat) :
    FaultsAs (List.replicate n (.tick (.finite t))) i
      (Action.replicate n (do let _ ← Interpreter.tick (.finite t)) i) := by
  induction n generalizing i with
  | zero => exact .nil i
  | succ n ih =>
    have hsucc : Action.replicate (n + 1) (do let _ ← Interpreter.tick (.finite t)) i =
        (Interpreter.tick (.finite t) >>= fun _ ↦
          Action.replicate n (do let _ ← Interpreter.tick (.finite t))) i := by
      simp only [Action.replicate_succ, bind_assoc, pure_bind]
    rw [hsucc, List.replicate_succ]
    refine .cons (perform_tick _ i) (fun _ _ ↦ ih (h.tick ht₀ ht₁)) fun e he ↦ ?_
    obtain ⟨hfault, halted⟩ := h.fault_of_tick ht₀ ht₁ he
    refine ⟨fun c hc ↦ ?_, hfault⟩
    rw [List.eq_of_mem_replicate hc]
    exact idle_tick_of_isHalted halted (by simpa using ht₀)

end Ready

end Interpreter

end ChipEight
