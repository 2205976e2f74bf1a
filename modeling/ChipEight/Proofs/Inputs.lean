import ChipEight.Proofs.Alike
import ChipEight.Proofs.Schedules
import Mathlib.Data.Nat.Count

/-!
# Input reaches a program where it asks for it

From its host a program gets the keys that are down and random bytes.  It asks for a key with three
operations and for a random byte with one, of which only the bits of the mask count.  Two runs in
which each question is answered alike are the same but for the keys and for the sources of random
bytes, and they take equally many bytes out of these.
-/

namespace ChipEight

open Manual

/-- Operations that ask whether a key is down. -/
def Opcode.asksKey : Opcode → Bool
  | .skipIfPressed | .skipUnlessPressed | .awaitKey => true
  | _ => false

namespace Manual

variable {v : View} {i : Instruction} {cause : Cause}

/-- Whether an instruction can be carried out does not depend on the keys. -/
theorem obstacle_withKeys (keys : Nat → Bool) (h : Obstacle v i cause) :
    Obstacle { v with keys := keys } i cause := by
  cases h with
  | underflow h => exact .underflow h
  | overflow h => exact .overflow h
  | key hop h => exact .key hop h
  | sprite hn h => exact .sprite hn h
  | digits h => exact .digits h
  | registers hop h => exact .registers hop h

/-- Of the keys an instruction takes notice of the one that it asks for, and of a random byte it
takes notice of the bits of its mask. -/
theorem after_withKeys {keys : Nat → Bool} {byte byte' : UInt8} (legacyStore : Bool)
    (hkey : i.op.asksKey = true →
      keys (v.registers i.word.x) = v.keys (v.registers i.word.x))
    (hbyte : i.op = .random → byte' &&& i.word.nn = byte &&& i.word.nn) :
    after legacyStore i byte' { v with keys := keys } =
      { after legacyStore i byte v with keys := keys } := by
  obtain ⟨op, w⟩ := i
  cases op with
  | skipIfPressed =>
    change View.skipIf _ (keys (v.registers w.x) = true) = _
    simp only [hkey rfl]
    rfl
  | skipUnlessPressed =>
    change View.skipIf _ (keys (v.registers w.x) = false) = _
    simp only [hkey rfl]
    rfl
  | awaitKey =>
    simp only [after, hkey rfl]
  | random =>
    have hmasked : byte'.toNat &&& w.nn.toNat = byte.toNat &&& w.nn.toNat := by
      simpa only [UInt8.toNat_and] using congrArg UInt8.toNat (hbyte rfl)
    simp only [after, hmasked]
    rfl
  | _ => rfl

end Manual

namespace Processor

variable {p q : Processor} {i : Instruction} {cause : Cause} {keypad : Keypad} {seen : List Bool}
  {source : Source}

/-- The processor with other keys down, other keys seen, and another source of random bytes. -/
def withInput (p : Processor) (keypad : Keypad) (seen : List Bool) (source : Source) : Processor :=
  { p with machine := { p.machine with keypad := keypad }, keys := seen, source := source }

/-- Processors that are the same but for what they get from the host. -/
inductive SameButInput (p : Processor) : Processor → Prop
  | intro (keypad : Keypad) (seen : List Bool) (source : Source) :
      SameButInput p (p.withInput keypad seen source)

/-- What an instruction asks the host for is the same in two processors: the key whose number is in
its register, or the random byte as far as the mask of the instruction goes. -/
structure AnsweredAlike (i : Instruction) (p q : Processor) : Prop where
  key : i.op.asksKey = true →
    q.machine.keypad.isDown (p.machine.register i.word.x).toNat =
      p.machine.keypad.isDown (p.machine.register i.word.x).toNat
  byte : i.op = .random → q.source.draw.1 &&& i.word.nn = p.source.draw.1 &&& i.word.nn

/-! ## One step -/

/-- What stops a processor has nothing to do with its input. -/
theorem Stops.withInput (h : Stops p cause) : Stops (p.withInput keypad seen source) cause :=
  h.congr rfl rfl (fun _ _ hd ↦ hd) fun _ _ _ ho ↦ obstacle_withKeys keypad.isDown ho

theorem faulted_withInput (p : Processor) (cause : Cause) :
    (p.withInput keypad seen source).faulted cause =
      (p.faulted cause).mapState (·.withInput keypad keypad.toList source) := by
  have hpc : (p.withInput keypad seen source).machine.nextPc = p.machine.nextPc :=
    Machine.nextPc_congr rfl
  have hnotes : (p.withInput keypad seen source).dispatchNotes = p.dispatchNotes :=
    dispatchNotes_congr rfl rfl
  rw [faulted, stopped, hpc, hnotes]
  rfl

/-- A step whose questions are answered alike gives the same answer, writes the same notes, and
leaves the same but for the input. -/
theorem agree_step (h : SameButInput p q)
    (alike : ∀ i, (step p).result = .ok (some i) → AnsweredAlike i p q) :
    Action.Agree SameButInput (step p) (step q) := by
  obtain ⟨keypad, seen, source⟩ := h
  have hends := ends_step p
  generalize step p = o at hends alike
  cases hends with
  | halted halted =>
    rw [step_of_isHalted (p := p.withInput keypad seen source) halted]
    exact ⟨rfl, rfl, .intro ..⟩
  | stopped running hs =>
    rw [step_eq_of_stops (p := p.withInput keypad seen source) running hs.withInput,
      faulted_withInput]
    exact ⟨rfl, rfl, .intro ..⟩
  | passed running hw hi hd =>
    rw [step_eq_of_skipped (p := p.withInput keypad seen source) running hw hi hd]
    exact ⟨rfl, rfl, .intro (p := p.passed) keypad keypad.toList source⟩
  | @carriedOut i m running hw hi clear hm =>
    -- an obstacle with the other input would be one with the input as it was
    have clear' : ∀ cause, ¬ Obstacle (p.withInput keypad seen source).machine.view i cause :=
      fun cause ho ↦ clear cause (obstacle_withKeys p.machine.view.keys ho)
    obtain ⟨n, hstep, hn⟩ :=
      step_eq_of_clear (p := p.withInput keypad seen source) running hw hi clear'
    have heard := alike i rfl
    have hview : n.view = { m with keypad := keypad }.view := by
      rw [hn]
      refine (after_withKeys (v := p.machine.view) p.legacyStore heard.key heard.byte).trans ?_
      rw [← hm]
      rfl
    rw [hstep, Machine.view_injective hview]
    exact ⟨rfl, rfl, .intro (p := p.carriedOut i m) keypad keypad.toList (draws i source)⟩

/-! ## Random bytes -/

/-- A step with this result has carried out an instruction that asks for a random byte. -/
def takesByte : Except Error (Option Instruction) → Bool
  | .ok (some i) => i.op = .random
  | _ => false

/-- An instruction that asks for a random byte takes one out of the source, and no other step takes
any. -/
theorem source_step (p : Processor) :
    (step p).state.source = if takesByte (step p).result then p.source.draw.2 else p.source := by
  have hsteps := steps_step p
  generalize (step p).state = q, (step p).result = answer at hsteps
  cases hsteps with
  | halted _ => rfl
  | stopped _ _ => rfl
  | passed _ _ _ _ => rfl
  | carriedOut _ _ _ _ _ => simp only [takesByte, decide_eq_true_eq]; rfl

/-- How many of the first `n` steps take a random byte. -/
def bytesTaken (keys : Nat → Keypad) (p : Processor) (n : Nat) : Nat :=
  Nat.count (fun k ↦ takesByte (step (before keys p k)).result) n

theorem bytesTaken_succ (keys : Nat → Keypad) (p : Processor) (n : Nat) :
    bytesTaken keys p (n + 1) =
      bytesTaken keys p n + if takesByte (step (before keys p n)).result then 1 else 0 :=
  Nat.count_succ _ n

variable {keys keys' : Nat → Keypad} {n : Nat}

/-- The source of a run is the source at its start without the bytes that its instructions took. -/
theorem source_played (keys : Nat → Keypad) (p : Processor) (n : Nat) :
    (played keys p n).source =
      Nat.repeat (fun source ↦ source.draw.2) (bytesTaken keys p n) p.source := by
  induction n with
  | zero => rfl
  | succ n ih =>
    have hbefore : (before keys p n).source = (played keys p n).source := rfl
    rw [played_succ, source_step, hbefore, ih, bytesTaken_succ]
    split
    · rfl
    · rfl

/-- Runs whose steps have the same results take equally many random bytes. -/
theorem bytesTaken_congr
    (h : ∀ k < n, (step (before keys' q k)).result = (step (before keys p k)).result) :
    bytesTaken keys' q n = bytesTaken keys p n := by
  induction n with
  | zero => rfl
  | succ n ih =>
    have hrest := ih fun k hk ↦ h k (Nat.lt_succ_of_lt hk)
    rw [bytesTaken_succ, bytesTaken_succ, hrest, h n n.lt_succ_self]

/-! ## Runs -/

theorem SameButInput.withKeypad (h : SameButInput p q) (k k' : Keypad) :
    SameButInput (p.withKeypad k) (q.withKeypad k') := by
  obtain ⟨keypad, seen, source⟩ := h
  exact .intro (p := p.withKeypad k) k' seen source

/-- Input reaches a program where it asks for it and nowhere else: runs from processors that are the
same but for their input, in which every question is answered alike, go the same way whatever other
keys are pressed and whatever else the sources of random bytes hold. -/
theorem input_reaches_where_asked (keys keys' : Nat → Keypad) (h : SameButInput p q)
    (alike : ∀ k < n, ∀ i, (step (before keys p k)).result = .ok (some i) →
      AnsweredAlike i (before keys p k) (before keys' q k)) :
    SameButInput (played keys p n) (played keys' q n) ∧
      (∀ k < n, Action.Agree SameButInput (step (before keys p k)) (step (before keys' q k))) ∧
      bytesTaken keys' q n = bytesTaken keys p n ∧
      (played keys p n).source =
        Nat.repeat (fun source ↦ source.draw.2) (bytesTaken keys p n) p.source ∧
      (played keys' q n).source =
        Nat.repeat (fun source ↦ source.draw.2) (bytesTaken keys p n) q.source := by
  have hagree : ∀ k < n, SameButInput (played keys p k) (played keys' q k) →
      Action.Agree SameButInput (step (before keys p k)) (step (before keys' q k)) :=
    fun k hk hsame ↦ agree_step (hsame.withKeypad _ _) (alike k hk)
  have hsame : ∀ k ≤ n, SameButInput (played keys p k) (played keys' q k) := fun k hk ↦
    played_related h fun l hl hrel ↦ (hagree l (hl.trans_le hk) hrel).state
  have hsteps := fun k hk ↦ hagree k hk (hsame k (Nat.le_of_lt hk))
  have htaken : bytesTaken keys' q n = bytesTaken keys p n :=
    bytesTaken_congr fun k hk ↦ (hsteps k hk).result
  refine ⟨hsame n n.le_refl, hsteps, htaken, source_played keys p n, ?_⟩
  rw [← htaken]
  exact source_played keys' q n

/-- A program that draws a number below sixteen and skips unless the key with that number is down;
its random bytes are all the same. -/
def guesser (byte : UInt8) : Processor :=
  (holding [0xC0, 0x0F, 0xE0, 0xA1]).withInput .released [] (.ofBytes [byte])

/-- The high half of the random byte and another key make no difference to the program. -/
theorem guesser_overlooks_input :
    let nineDown : Keypad := ⟨(Vector.replicate keyCount false).set 9 true⟩
    SameButInput (played (fun _ ↦ .released) (guesser 0x35) 2)
        (played (fun _ ↦ nineDown) (guesser 0xA5) 2) ∧
      bytesTaken (fun _ ↦ nineDown) (guesser 0xA5) 2 = 1 := by
  intro nineDown
  have hrandom : (step (before (fun _ ↦ .released) (guesser 0x35) 0)).result =
      .ok (some ⟨.random, .ofBytes 0xC0 0x0F⟩) := by
    decide +kernel
  have hskip : (step (before (fun _ ↦ .released) (guesser 0x35) 1)).result =
      .ok (some ⟨.skipUnlessPressed, .ofBytes 0xE0 0xA1⟩) := by
    decide +kernel
  have htaken : bytesTaken (fun _ ↦ .released) (guesser 0x35) 2 = 1 := by
    rw [bytesTaken_succ, bytesTaken_succ, hrandom, hskip]
    rfl
  have hsame : SameButInput (guesser 0x35) (guesser 0xA5) := .intro .released [] (.ofBytes [0xA5])
  have alike : ∀ k < 2, ∀ i,
      (step (before (fun _ ↦ .released) (guesser 0x35) k)).result = .ok (some i) →
      AnsweredAlike i (before (fun _ ↦ .released) (guesser 0x35) k)
        (before (fun _ ↦ nineDown) (guesser 0xA5) k) := by
    intro k hk i hi
    obtain rfl | rfl : k = 0 ∨ k = 1 := by omega
    · cases hrandom.symm.trans hi
      exact ⟨fun h ↦ absurd h (by decide), fun _ ↦ by decide +kernel⟩
    · cases hskip.symm.trans hi
      exact ⟨fun _ ↦ by decide +kernel, fun h ↦ absurd h (by decide)⟩
  obtain ⟨hplayed, -, hequal, -⟩ := input_reaches_where_asked _ _ hsame alike
  exact ⟨hplayed, hequal.trans htaken⟩

end Processor

end ChipEight
