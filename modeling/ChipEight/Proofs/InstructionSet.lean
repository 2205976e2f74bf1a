import ChipEight.Proofs.Step

/-!
# The instruction set

A step that does not fail does what the manual says of the instruction at the program counter, and a
step fails for the causes that the manual lists and for no others.
-/

namespace ChipEight

open Manual

namespace Manual

/-- The digits that a register is stored as are decimal ones, and they make up its value. -/
theorem digits_after (legacyStore : Bool) (byte : UInt8) {i : Instruction} {v : View}
    (hop : i.op = .storeDecimal) (hx : v.registers i.word.x < 256) :
    let digit := fun k ↦ (after legacyStore i byte v).memory (v.index + k)
    (∀ k < 3, digit k ≤ 9) ∧
      100 * digit 0 + 10 * digit 1 + digit 2 = v.registers i.word.x := by
  intro digit
  have hdigit : ∀ k < 3, digit k =
      if k = 0 then v.registers i.word.x / 100
      else if k = 1 then v.registers i.word.x / 10 % 10
      else v.registers i.word.x % 10 := by
    intro k hk
    simp only [digit, after, hop, View.fill]
    rw [if_pos (by omega), Nat.add_sub_cancel_left]
  constructor
  · intro k hk
    rw [hdigit k hk]
    split
    · omega
    · split
      · omega
      · omega
  · rw [hdigit 0 (by decide), hdigit 1 (by decide), hdigit 2 (by decide)]
    simp only [if_true, Nat.one_ne_zero, if_false, OfNat.ofNat_ne_zero, OfNat.ofNat_ne_one]
    omega

/-- A sprite of no rows lies everywhere. -/
theorem pos_of_obstacle_draw {v : View} {w : Word} {cause : Cause}
    (h : Obstacle v ⟨.draw, w⟩ cause) : 0 < w.n.val := by
  cases h with
  | key hop _ => simp at hop
  | sprite hn _ => exact hn
  | registers hop _ => simp at hop

end Manual

namespace Processor

/-- A step that does not fail has the effect that the manual prescribes for the instruction at the
program counter, and the manual leaves no choice.  Besides the machine it may only draw a random
byte, and it notes the keys. -/
theorem step_follows_manual {p : Processor} {i : Instruction} (running : p.isHalted = false)
    (known : Instruction.ofWord? p.machine.word = some i)
    (succeeds : ∀ e, (step p).result ≠ .error e) :
    let q := (step p).state
    (step p).result = .ok (some i) ∧
      q = { p with
        machine := q.machine
        source := if i.op = .random then p.source.draw.2 else p.source
        keys := p.machine.keypad.toList } ∧
      q.machine.view = after p.legacyStore i p.source.draw.1 p.machine.view ∧
      (∀ m : Machine, m.view = after p.legacyStore i p.source.draw.1 p.machine.view →
        m = q.machine) ∧
      (i.op = .storeDecimal →
        let digit := fun k ↦ (q.machine.memory.byteAt (p.machine.index.toNat + k)).toNat
        (∀ k < 3, digit k ≤ 9) ∧
          100 * digit 0 + 10 * digit 1 + digit 2 = (p.machine.register i.word.x).toNat) := by
  have hsteps := steps_step p
  generalize (step p).state = q, (step p).result = answer at hsteps succeeds ⊢
  cases hsteps with
  | halted h => simp [running] at h
  | stopped _ _ => exact absurd rfl (succeeds _)
  | passed _ _ hi _ => simp [known] at hi
  | @carriedOut j m _ _ hi _ hm =>
    obtain rfl : i = j := Option.some.inj (known.symm.trans hi)
    refine ⟨rfl, rfl, hm, fun n hn ↦ Machine.view_injective (hn.trans hm.symm), ?_⟩
    intro hop
    have hdigits := digits_after p.legacyStore p.source.draw.1 (v := p.machine.view) hop
      (p.machine.register i.word.x).toNat_lt
    rw [← hm] at hdigits
    exact hdigits

/-- A processor with the word `8FF4` at its program counter and 128 in the register that it
doubles. -/
def doublingFlag : Processor :=
  let p := initial default false false
  let m := { p.machine with memory := Memory.blank.splice startAddress [0x8F, 0xF4] }
  { p with machine := m.setRegister Machine.flagRegister 0x80 }

/-- The instruction that adds the flag register to itself. -/
def doubleFlag : Instruction := ⟨.add, .ofBytes 0x8F 0xF4⟩

theorem word_doublingFlag : doublingFlag.machine.word = doubleFlag.word := by
  have hm : doublingFlag.machine.memory = Memory.blank.splice startAddress [0x8F, 0xF4] := rfl
  have hpc : doublingFlag.machine.pc.toNat = startAddress := rfl
  rw [Machine.word, hm, hpc, Memory.wordAt, Memory.byteAt_splice, Memory.byteAt_splice]
  decide

/-- A sum in the flag register gives way to its carry. -/
theorem carry_replaces_sum :
    (step doublingFlag).state.machine.view.registers Machine.flagRegister = 1 := by
  have known : Instruction.ofWord? doublingFlag.machine.word = some doubleFlag := by
    rw [word_doublingFlag]
    rfl
  have clear : ∀ cause, ¬ Obstacle doublingFlag.machine.view doubleFlag cause := by
    intro cause ho
    cases ho with
    | key hop _ => simp at hop
    | registers hop _ => simp at hop
  have hw : doublingFlag.machine.HasWord := ⟨by decide, by decide⟩
  obtain ⟨m, log, hstep, -⟩ := step_of_clear rfl hw known clear
  have succeeds : ∀ e, (step doublingFlag).result ≠ .error e := by simp [hstep]
  rw [(step_follows_manual rfl known succeeds).2.2.1]
  decide

/-- A processor that is not halted fails exactly for what stops it, with the address of the
instruction; a sprite of no rows is none of that. -/
theorem step_error_iff {p : Processor} (running : p.isHalted = false) :
    (∀ e, (step p).result = .error e ↔
      ∃ cause, Stops p cause ∧ e = .fault ⟨cause, some p.machine.pc⟩) ∧
    ∀ w, p.machine.HasWord → Instruction.ofWord? p.machine.word = some ⟨.draw, w⟩ → w.n = 0 →
      (step p).result = .ok (some ⟨.draw, w⟩) := by
  constructor
  · intro e
    constructor
    · intro h
      obtain ⟨-, cause, hs, he, -⟩ := stops_of_result_error h
      exact ⟨cause, hs, he⟩
    · rintro ⟨cause, hs, rfl⟩
      obtain ⟨log, hstep⟩ := step_of_stops running hs
      rw [hstep]
  · intro w hw hi hn
    have clear : ∀ cause, ¬ Obstacle p.machine.view ⟨.draw, w⟩ cause := by
      intro cause ho
      have hpos := pos_of_obstacle_draw ho
      simp [hn] at hpos
    obtain ⟨m, log, hstep, -⟩ := step_of_clear running hw hi clear
    rw [hstep]

/-- Behind the end of memory there is nothing to fetch. -/
theorem step_fails_behind_memory :
    ∃ p : Processor, p.isHalted = false ∧
      (step p).result = .error (.fault ⟨.outOfBounds .memory 0x1000, some 0x1000⟩) := by
  let p : Processor := initial default false false
  let behind : Processor := { p with machine := p.machine.jumpTo 0x1000 }
  have hs : Stops behind (.outOfBounds .memory 0x1000) := .outside (.inr (by decide))
  exact ⟨behind, rfl, ((step_error_iff (p := behind) rfl).1 _).2 ⟨_, hs, rfl⟩⟩

end Processor

end ChipEight
