import ChipEight.Proofs.Schedules

/-!
# Options change what they say and no more

In debug mode a processor does what it does without, but for words that stand for no instruction:
these it passes over, where the other one halts.  With the custom that storing and loading registers
moves the index register it does what it does without, but for these two operations, after which the
index register is all that differs.  So two runs that differ in an option go together until the
option first matters.
-/

namespace ChipEight

open Manual

/-- Operations that store registers or load them. -/
def Opcode.movesRegisters : Opcode → Bool
  | .storeRegisters | .loadRegisters => true
  | _ => false

namespace Manual

variable {i : Instruction} {byte : UInt8} {v : View}

/-- Where no registers are stored or loaded it does not matter what becomes of the index
register. -/
theorem after_of_not_movesRegisters (h : i.op.movesRegisters = false) (legacyStore : Bool) :
    after legacyStore i byte v = after false i byte v := by
  obtain ⟨op, w⟩ := i
  cases op with
  | storeRegisters => cases h
  | loadRegisters => cases h
  | _ => rfl

/-- Where registers are stored or loaded the index register stays, or it moves behind them. -/
theorem after_of_movesRegisters (h : i.op.movesRegisters = true) :
    (after false i byte v).index = v.index ∧
      after true i byte v =
        { after false i byte v with index := (v.index + i.word.x.val + 1) % 65536 } := by
  obtain ⟨op, w⟩ := i
  cases op with
  | storeRegisters => exact ⟨rfl, rfl⟩
  | loadRegisters => exact ⟨rfl, rfl⟩
  | _ => cases h

/-- No instruction is kept from being carried out by being unknown. -/
theorem not_obstacle_unknownOpcode {word : Int} : ¬ Obstacle v i (.unknownOpcode word) := by
  intro h
  generalize hc : Cause.unknownOpcode word = cause at h
  cases h <;> cases hc

end Manual

namespace Processor

variable {p : Processor} {i : Instruction} {cause : Cause}

/-! ## Debug mode -/

/-- The processor in debug mode or out of it. -/
def withDebug (p : Processor) (debug : Bool) : Processor := { p with debug := debug }

theorem withDebug_self {debug : Bool} (h : p.debug = debug) : p.withDebug debug = p := by
  rw [← h]
  rfl

/-- The next step finds a word that stands for no instruction. -/
structure FindsUnknown (p : Processor) : Prop where
  running : p.isHalted = false
  hasWord : p.machine.HasWord
  unknown : Instruction.ofWord? p.machine.word = none

/-- A result reports a word that stands for no instruction. -/
def ReportsUnknown (result : Except Error (Option Instruction)) : Prop :=
  ∃ word address, result = .error (.fault ⟨.unknownOpcode word, address⟩)

/-- What stops a processor stops it in debug mode as well, unless it is an unknown word. -/
theorem Stops.withDebug (known : ¬ p.FindsUnknown) (running : p.isHalted = false)
    (h : Stops p cause) (debug : Bool) : Stops (p.withDebug debug) cause :=
  h.congr rfl rfl (fun hw hi _ ↦ absurd ⟨running, hw, hi⟩ known) fun _ _ _ ho ↦ ho

/-- A step takes no notice of debug mode unless it finds an unknown word. -/
theorem step_withDebug (known : ¬ p.FindsUnknown) (debug : Bool) :
    step (p.withDebug debug) = (step p).mapState (·.withDebug debug) := by
  have hends := ends_step p
  generalize step p = o at hends
  cases hends with
  | halted h => rw [step_of_isHalted (p := p.withDebug debug) h]; rfl
  | stopped running hs =>
    rw [step_eq_of_stops (p := p.withDebug debug) running (hs.withDebug known running debug)]
    rfl
  | passed running hw hi _ => exact absurd ⟨running, hw, hi⟩ known
  | carriedOut running hw hi clear hm =>
    obtain ⟨n, hstep, hn⟩ := step_eq_of_clear (p := p.withDebug debug) running hw hi clear
    rw [hstep, Machine.view_injective (hn.trans hm.symm)]
    rfl

/-- An unknown word stops a processor only where it finds one, and out of debug mode. -/
theorem Stops.findsUnknown {word : Int} (running : p.isHalted = false)
    (h : Stops p (.unknownOpcode word)) : p.FindsUnknown ∧ p.debug = false := by
  generalize hc : Cause.unknownOpcode word = cause at h
  cases h with
  | outside _ => cases hc
  | straddling _ => cases hc
  | unknown hw hi hd => exact ⟨⟨running, hw, hi⟩, hd⟩
  | obstacle _ _ ho => exact absurd (hc ▸ ho) not_obstacle_unknownOpcode

/-- A step reports an unknown word if it finds one, unless it is in debug mode. -/
theorem reportsUnknown_step_iff :
    ReportsUnknown (step p).result ↔ p.FindsUnknown ∧ p.debug = false := by
  constructor
  · rintro ⟨word, address, hr⟩
    obtain ⟨running, cause, hs, he, -⟩ := stops_of_result_error hr
    cases he
    exact hs.findsUnknown running
  · rintro ⟨⟨running, hw, hi⟩, hd⟩
    rw [step_eq_of_stops running (.unknown hw hi hd)]
    exact ⟨_, _, rfl⟩

/-- Where a step finds an unknown word it passes over it in debug mode, and the machine is the one
that it leaves when it halts. -/
theorem FindsUnknown.step_withDebug (h : p.FindsUnknown) (hd : p.debug = false) :
    (step (p.withDebug true)).result = .ok none ∧
      (step (p.withDebug true)).state = (p.withDebug true).passed ∧
      (step (p.withDebug true)).state.machine = (step p).state.machine := by
  have hskip := step_eq_of_skipped (p := p.withDebug true) h.running h.hasWord h.unknown rfl
  have hstop := step_eq_of_stops h.running (.unknown h.hasWord h.unknown hd)
  rw [hskip, hstop, faulted, stopped, Machine.nextPc_of_hasWord h.hasWord]
  exact ⟨rfl, rfl, rfl⟩

/-! ## Storing and loading registers -/

/-- The processor with the custom that storing and loading registers moves the index register, or
without it. -/
def withLegacyStore (p : Processor) (legacyStore : Bool) : Processor :=
  { p with legacyStore := legacyStore }

/-- An instruction has been carried out that stores registers or loads them. -/
def ReportsMove (result : Except Error (Option Instruction)) : Prop :=
  ∃ i, result = .ok (some i) ∧ i.op.movesRegisters = true

theorem Stops.withLegacyStore (h : Stops p cause) (legacyStore : Bool) :
    Stops (p.withLegacyStore legacyStore) cause :=
  h.congr rfl rfl (fun _ _ hd ↦ hd) fun _ _ _ ho ↦ ho

/-- A step takes no notice of the custom unless it stores registers or loads them. -/
theorem step_withLegacyStore (hp : p.legacyStore = false) (h : ¬ ReportsMove (step p).result) :
    step (p.withLegacyStore true) = (step p).mapState (·.withLegacyStore true) := by
  have hends := ends_step p
  generalize step p = o at hends h
  cases hends with
  | halted halted =>
    rw [step_of_isHalted (p := p.withLegacyStore true) halted]
    rfl
  | stopped running hs =>
    rw [step_eq_of_stops (p := p.withLegacyStore true) running (hs.withLegacyStore true)]
    rfl
  | passed running hw hi hd =>
    rw [step_eq_of_skipped (p := p.withLegacyStore true) running hw hi hd]
    rfl
  | @carriedOut i m running hw hi clear hm =>
    have hop : i.op.movesRegisters = false :=
      Bool.eq_false_of_not_eq_true fun hop ↦ h ⟨i, rfl, hop⟩
    obtain ⟨n, hstep, hn⟩ :=
      step_eq_of_clear (p := p.withLegacyStore true) running hw hi clear
    rw [hp] at hm
    have hview : n.view = m.view :=
      hn.trans ((after_of_not_movesRegisters hop true).trans hm.symm)
    rw [hstep, Machine.view_injective hview]
    rfl

/-- Where a step stores registers or loads them, the custom moves the index register behind them and
changes nothing else. -/
theorem step_withLegacyStore_of_movesRegisters (hp : p.legacyStore = false)
    (h : (step p).result = .ok (some i)) (hop : i.op.movesRegisters = true) :
    (step p).state.machine.index = p.machine.index ∧
      ∃ index : UInt16, index.toNat = (p.machine.index.toNat + i.word.x.val + 1) % 65536 ∧
        step (p.withLegacyStore true) = (step p).mapState fun q ↦
          { q.withLegacyStore true with machine := q.machine.pointTo index } := by
  have hends := ends_step p
  generalize step p = o at hends h
  cases hends with
  | halted _ => cases h
  | stopped _ _ => cases h
  | passed _ _ _ _ => cases h
  | @carriedOut j m running hw hi clear hm =>
    obtain rfl : j = i := Option.some.inj (Except.ok.inj h)
    obtain ⟨n, hstep, hn⟩ :=
      step_eq_of_clear (p := p.withLegacyStore true) running hw hi clear
    rw [hp] at hm
    obtain ⟨hkept, hmoved⟩ :
        (after false j p.source.draw.1 p.machine.view).index = p.machine.view.index ∧ _ :=
      after_of_movesRegisters hop
    have hindex : n.index.toNat = (p.machine.index.toNat + j.word.x.val + 1) % 65536 :=
      congrArg View.index (hn.trans hmoved)
    have hview : n.view = (m.pointTo n.index).view := by
      rw [Machine.view_pointTo, hindex, hm]
      exact hn.trans hmoved
    refine ⟨UInt16.toNat_inj.1 ((congrArg View.index hm).trans hkept), n.index, hindex, ?_⟩
    rw [hstep, Machine.view_injective hview]
    rfl

/-! ## Runs -/

section Runs

variable (keys : Nat → Keypad) (p : Processor) (n : Nat)

/-- The first `n` steps of a run report no unknown word. -/
def KnowsWords : Prop := ∀ k < n, ¬ ReportsUnknown (step (before keys p k)).result

/-- The first `n` steps of a run neither store registers nor load them. -/
def KeepsRegisters : Prop := ∀ k < n, ¬ ReportsMove (step (before keys p k)).result

/-- How a run in debug mode goes at step `n`, as against the run out of debug mode from the same
processor. -/
structure SkipsUnknown : Prop where
  /-- The runs are the same until the one out of debug mode reports an unknown word. -/
  same : KnowsWords keys (p.withDebug false) n →
    played keys (p.withDebug true) n = (played keys (p.withDebug false) n).withDebug true
  /-- Where it does, the one in debug mode goes on behind the word without an answer. -/
  skips : KnowsWords keys (p.withDebug false) n →
    ReportsUnknown (step (before keys (p.withDebug false) n)).result →
    let q := before keys (p.withDebug true) n
    (step q).result = .ok none ∧
      (step q).state = { q with
        machine := { q.machine with pc := q.machine.pc + 2, busy := false }
        keys := q.machine.keypad.toList } ∧
      (step q).state.machine = (step (before keys (p.withDebug false) n)).state.machine ∧
      (step q).state.isHalted = false
  /-- In debug mode no unknown word is reported. -/
  not_reports : ¬ ReportsUnknown (step (before keys (p.withDebug true) n)).result
  /-- In debug mode no unknown word halts the processor. -/
  fault_known : p.isHalted = false → (played keys (p.withDebug true) n).isHalted = true →
    ∃ fault, (played keys (p.withDebug true) n).fault = some fault ∧
      ∀ word, fault.cause ≠ .unknownOpcode word
  /-- All that the next step would report out of debug mode but an unknown word it reports in debug
  mode as well, with the same effect. -/
  otherwise :
    let q := before keys (p.withDebug true) n
    ¬ ReportsUnknown (step (q.withDebug false)).result →
      step q = (step (q.withDebug false)).mapState (·.withDebug true)
  /-- A fault in debug mode halts the processor. -/
  halts : ∀ fault, (step (before keys (p.withDebug true) n)).result = .error (.fault fault) →
    (step (before keys (p.withDebug true) n)).state.isHalted = true ∧
      (step (before keys (p.withDebug true) n)).state.fault = some fault

/-- How a run with the custom that storing and loading registers moves the index register goes at
step `n`, as against the run without it from the same processor. -/
structure MovesIndex : Prop where
  /-- The runs are the same until registers are stored or loaded. -/
  same : KeepsRegisters keys (p.withLegacyStore false) n →
    played keys (p.withLegacyStore true) n =
      (played keys (p.withLegacyStore false) n).withLegacyStore true
  /-- Where they are, the index register stays without the custom.  With it the index register goes
  behind them, and that is the only difference. -/
  moves : KeepsRegisters keys (p.withLegacyStore false) n →
    ∀ i, (step (before keys (p.withLegacyStore false) n)).result = .ok (some i) →
      i.op.movesRegisters = true →
      let index := (before keys (p.withLegacyStore false) n).machine.index
      (step (before keys (p.withLegacyStore false) n)).state.machine.index = index ∧
        ∃ index' : UInt16, index'.toNat = (index.toNat + i.word.x.val + 1) % 65536 ∧
          step (before keys (p.withLegacyStore true) n) =
            (step (before keys (p.withLegacyStore false) n)).mapState fun q ↦
              { q with legacyStore := true, machine := { q.machine with index := index' } }

theorem options_played :
    (played keys p n).debug = p.debug ∧ (played keys p n).legacyStore = p.legacyStore := by
  refine played_invariant (P := fun q ↦ q.debug = p.debug ∧ q.legacyStore = p.legacyStore) ?_
    ⟨rfl, rfl⟩ n
  intro q k h
  obtain ⟨hdebug, hlegacy⟩ := options_step (q.withKeypad k)
  exact ⟨hdebug.trans h.1, hlegacy.trans h.2⟩

variable {keys p n}

theorem played_withDebug (h : KnowsWords keys (p.withDebug false) n) :
    played keys (p.withDebug true) n = (played keys (p.withDebug false) n).withDebug true := by
  refine played_map (p := p.withDebug false) (f := fun q ↦ q.withDebug true) (fun _ _ ↦ rfl)
    fun k hk ↦ step_withDebug (fun hfinds ↦ h k hk ?_) true
  exact reportsUnknown_step_iff.2 ⟨hfinds, (options_played keys (p.withDebug false) k).1⟩

theorem played_withLegacyStore (h : KeepsRegisters keys (p.withLegacyStore false) n) :
    played keys (p.withLegacyStore true) n =
      (played keys (p.withLegacyStore false) n).withLegacyStore true := by
  refine played_map (p := p.withLegacyStore false) (f := fun q ↦ q.withLegacyStore true)
    (fun _ _ ↦ rfl) fun k hk ↦ ?_
  exact step_withLegacyStore (options_played keys (p.withLegacyStore false) k).2 (h k hk)

/-- A processor in debug mode is halted, if at all, by a fault that is no unknown word. -/
theorem fault_played_withDebug (running : p.isHalted = false)
    (h : (played keys (p.withDebug true) n).isHalted = true) :
    ∃ fault, (played keys (p.withDebug true) n).fault = some fault ∧
      ∀ word, fault.cause ≠ .unknownOpcode word := by
  induction n with
  | zero => exact absurd (running.symm.trans h) Bool.false_ne_true
  | succ n ih =>
    rw [played_succ] at h ⊢
    have hd : (before keys (p.withDebug true) n).debug = true :=
      (options_played keys (p.withDebug true) n).1
    have hsteps := steps_step (before keys (p.withDebug true) n)
    generalize (step (before keys (p.withDebug true) n)).state = q,
      (step (before keys (p.withDebug true) n)).result = answer at hsteps h ⊢
    cases hsteps with
    | halted hhalted => exact ih hhalted
    | @stopped cause hrunning hs =>
      refine ⟨_, rfl, fun word hword ↦ ?_⟩
      obtain rfl : cause = .unknownOpcode word := hword
      exact absurd (hd.symm.trans (hs.findsUnknown hrunning).2) Bool.noConfusion
    | passed hrunning _ _ _ => exact absurd (hrunning.symm.trans h) Bool.false_ne_true
    | carriedOut hrunning _ _ _ _ => exact absurd (hrunning.symm.trans h) Bool.false_ne_true

theorem skipsUnknown (keys : Nat → Keypad) (p : Processor) (n : Nat) : SkipsUnknown keys p n where
  same := played_withDebug
  skips h hr := by
    have hq : before keys (p.withDebug true) n =
        (before keys (p.withDebug false) n).withDebug true :=
      congrArg (·.withKeypad (keys n)) (played_withDebug h)
    obtain ⟨hfinds, hd⟩ := reportsUnknown_step_iff.1 hr
    obtain ⟨hresult, hstate, hmachine⟩ := hfinds.step_withDebug hd
    rw [hq]
    refine ⟨hresult, hstate, hmachine, ?_⟩
    rw [hstate]
    exact hfinds.running
  not_reports h := by
    have hd := (reportsUnknown_step_iff.1 h).2
    have hd' := (options_played keys (p.withDebug true) n).1
    exact Bool.noConfusion (hd.symm.trans hd')
  fault_known := fault_played_withDebug
  otherwise := by
    intro q h
    have hd : q.debug = true := (options_played keys (p.withDebug true) n).1
    have hstep := step_withDebug (p := q.withDebug false)
      (fun hfinds ↦ h (reportsUnknown_step_iff.2 ⟨hfinds, rfl⟩)) true
    have hq : (q.withDebug false).withDebug true = q := withDebug_self hd
    rw [hq] at hstep
    exact hstep
  halts fault h := by
    obtain ⟨-, cause, -, he, hstate⟩ := stops_of_result_error h
    cases he
    rw [hstate]
    exact ⟨rfl, rfl⟩

theorem movesIndex (keys : Nat → Keypad) (p : Processor) (n : Nat) : MovesIndex keys p n where
  same := played_withLegacyStore
  moves h i hi hop := by
    have hq : before keys (p.withLegacyStore true) n =
        (before keys (p.withLegacyStore false) n).withLegacyStore true :=
      congrArg (·.withKeypad (keys n)) (played_withLegacyStore h)
    have hlegacy := (options_played keys (p.withLegacyStore false) n).2
    rw [hq]
    exact step_withLegacyStore_of_movesRegisters hlegacy hi hop

end Runs

/-- Options change what they say and no more, in runs of any length from any processor and under any
schedule of keys. -/
theorem options_change_what_they_say (keys : Nat → Keypad) (p : Processor) (n : Nat) :
    SkipsUnknown keys p n ∧ MovesIndex keys p n :=
  ⟨skipsUnknown keys p n, movesIndex keys p n⟩

/-- At a word of ones behind its first instruction a processor in debug mode goes on, and with the
custom the index register, which the first instruction has set, goes behind two registers that are
stored. -/
theorem options_matter :
    let unknown := holding [0x6A, 0x05, 0xFF, 0xFF]
    let storing := holding [0xA3, 0x00, 0xF1, 0x55]
    let keys : Nat → Keypad := fun _ ↦ .released
    (played keys (unknown.withDebug true) 2).machine.pc = 0x204 ∧
      (played keys (storing.withLegacyStore true) 2).machine.index = 0x302 := by
  intro unknown storing keys
  obtain ⟨hskips, -⟩ := options_change_what_they_say keys unknown 1
  obtain ⟨-, hmoves⟩ := options_change_what_they_say keys storing 1
  have hfirst (k : Nat) (hk : k < 1) :
      (step (before keys (unknown.withDebug false) k)).result =
        .ok (some ⟨.setByte, .ofBytes 0x6A 0x05⟩) := by
    obtain rfl : k = 0 := by omega
    decide +kernel
  have hunknown : (step (before keys (unknown.withDebug false) 1)).result =
      .error (.fault ⟨.unknownOpcode 0xFFFF, some 0x202⟩) := by
    decide +kernel
  have hfirst' (k : Nat) (hk : k < 1) :
      (step (before keys (storing.withLegacyStore false) k)).result =
        .ok (some ⟨.setIndex, .ofBytes 0xA3 0x00⟩) := by
    obtain rfl : k = 0 := by omega
    decide +kernel
  have hstored : (step (before keys (storing.withLegacyStore false) 1)).result =
      .ok (some ⟨.storeRegisters, .ofBytes 0xF1 0x55⟩) := by
    decide +kernel
  have hindex' : (before keys (storing.withLegacyStore false) 1).machine.index = 0x300 := by
    decide +kernel
  constructor
  · have hknows : KnowsWords keys (unknown.withDebug false) 1 := by
      rintro k hk ⟨word, address, h⟩
      cases (hfirst k hk).symm.trans h
    obtain ⟨-, hstate, -⟩ := hskips.skips hknows ⟨_, _, hunknown⟩
    have hpc : (before keys (unknown.withDebug true) 1).machine.pc = 0x202 := by decide +kernel
    rw [played_succ, hstate]
    exact congrArg (· + 2) hpc
  · have hkeeps : KeepsRegisters keys (storing.withLegacyStore false) 1 := by
      rintro k hk ⟨i, h, hop⟩
      cases (hfirst' k hk).symm.trans h
      cases hop
    obtain ⟨-, index, hindex, hstep⟩ := hmoves.moves hkeeps _ hstored rfl
    rw [hindex'] at hindex
    rw [played_succ, hstep]
    exact UInt16.toNat_inj.1 hindex

end Processor

end ChipEight
