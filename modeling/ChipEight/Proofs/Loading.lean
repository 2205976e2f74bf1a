import ChipEight.Proofs.Alike
import ChipEight.Proofs.Clocks
import ChipEight.Proofs.Halting

/-!
# A load forgets the past

After a load all of an interpreter follows from the program, the font and the settings, and from the
keypad and the source of random bytes, which belong to the host.  The one thing that a load leaves
behind, the keys that the latest instruction saw, is hidden until an instruction looks at the keys
itself.  So interpreters with different pasts cannot be told apart.
-/

namespace ChipEight

namespace Interpreter

variable {i j i₀ j₀ before before' : Interpreter} {s : Settings} {program font : Bytes}

/-- An interpreter right after a load, given the one before. -/
structure JustLoaded (program font : Bytes) (before i : Interpreter) : Prop where
  /-- The font and the program, and zeros around them. -/
  memory : ∀ a, i.machine.memory.byteAt a =
    if 0x050 ≤ a ∧ a ≤ 0x09F then font[a - 0x050]?.getD 0
    else if 0x200 ≤ a ∧ a < 0x200 + program.length then program[a - 0x200]?.getD 0
    else 0
  registers : ∀ x, i.machine.register x = 0
  index : i.machine.index = 0
  pc : i.machine.pc = 0x200
  slots : ∀ k, i.machine.stack.slot k = 0
  depth : i.machine.stack.depth = 0
  delay : i.machine.delay = 0
  sound : i.machine.sound = 0
  dark : ∀ x y, i.machine.screen.isLit x y = false
  redraw : i.machine.redraw = true
  busy : i.machine.busy = false
  running : i.processor.isHalted = false
  fault : i.processor.fault = none
  pending : i.pacer.pending = 0
  phase : i.pacer.phase = 0
  instructions : i.pacer.instructions = 0
  ticks : i.pacer.ticks = 0
  loaded : i.loaded = true
  keypad : i.machine.keypad = before.machine.keypad
  source : i.processor.source = before.processor.source

/-- A load between instructions is accepted if program and font fit. -/
theorem load_of_fits (idle : i.machine.busy = false) (hfont : font.length = glyphCount * glyphSize)
    (hprogram : program.length ≤ maxProgramSize) :
    load program font i =
      ⟨{ (i.withMachine (i.machine.inserted program font)).resetProcessor.resetPacer with
          loaded := true }, .ok (), [.programLoaded program.length]⟩ :=
  load_of_ok (Machine.load_of_accepted idle hfont hprogram)

/-- Memory with font and program in place. -/
theorem byteAt_splice_splice (hfont : font.length = glyphCount * glyphSize)
    (hprogram : program.length ≤ maxProgramSize) (a : Nat) :
    ((Memory.blank.splice fontAddress font).splice startAddress program).byteAt a =
      if 0x050 ≤ a ∧ a ≤ 0x09F then font[a - 0x050]?.getD 0
      else if 0x200 ≤ a ∧ a < 0x200 + program.length then program[a - 0x200]?.getD 0
      else 0 := by
  have hfont : font.length = 80 := hfont
  have hprogram : program.length ≤ 3584 := hprogram
  simp only [Memory.byteAt_splice, Memory.byteAt_blank]
  grind

section Fits

variable (idle : i.machine.busy = false) (hfont : font.length = glyphCount * glyphSize)
  (hprogram : program.length ≤ maxProgramSize)
include idle hfont hprogram

theorem result_load_of_fits : (perform (.load program font) i).result = .ok .done := by
  rw [perform, Action.result_map, load_of_fits idle hfont hprogram]
  rfl

theorem justLoaded_load : JustLoaded program font i (perform (.load program font) i).state := by
  rw [perform, Action.state_map, load_of_fits idle hfont hprogram]
  exact {
    memory := byteAt_splice_splice hfont hprogram
    registers := fun x ↦ by simp [machine, withMachine, resetProcessor, resetPacer,
      Processor.reset, Machine.register, Machine.inserted, Machine.place, Machine.reset,
      Machine.initial]
    index := rfl
    pc := rfl
    slots := CallStack.slot_empty
    depth := rfl
    delay := rfl
    sound := rfl
    dark := Screen.isLit_dark
    redraw := rfl
    busy := idle
    running := rfl
    fault := rfl
    pending := rfl
    phase := rfl
    instructions := rfl
    ticks := rfl
    loaded := rfl
    keypad := rfl
    source := rfl }

end Fits

/-- What is known of a machine right after a load is all there is to it. -/
theorem JustLoaded.machine_eq (hi : JustLoaded program font before i)
    (hj : JustLoaded program font before' j)
    (hkeypad : before.machine.keypad = before'.machine.keypad) : i.machine = j.machine := by
  apply Machine.view_injective
  ext : 1
  case memory => exact funext fun a ↦ congrArg UInt8.toNat ((hi.memory a).trans (hj.memory a).symm)
  case registers =>
    exact funext fun x ↦ congrArg UInt8.toNat ((hi.registers x).trans (hj.registers x).symm)
  case index => exact congrArg UInt16.toNat (hi.index.trans hj.index.symm)
  case pc => exact hi.pc.trans hj.pc.symm
  case slots => exact funext fun k ↦ (hi.slots k).trans (hj.slots k).symm
  case depth => exact hi.depth.trans hj.depth.symm
  case delay => exact congrArg UInt8.toNat (hi.delay.trans hj.delay.symm)
  case sound => exact congrArg UInt8.toNat (hi.sound.trans hj.sound.symm)
  case lit => exact funext fun x ↦ funext fun y ↦ (hi.dark x y).trans (hj.dark x y).symm
  case keys =>
    exact congrArg Keypad.isDown (hi.keypad.trans (hkeypad.trans hj.keypad.symm))
  case redraw => exact hi.redraw.trans hj.redraw.symm
  case busy => exact hi.busy.trans hj.busy.symm

theorem JustLoaded.pacer_eq (hi : JustLoaded program font before i)
    (hj : JustLoaded program font before' j) (hs : i.HasSettings s) (hs' : j.HasSettings s) :
    i.pacer = j.pacer := by
  have hclock : i.pacer.clockRate = j.pacer.clockRate :=
    Int.ofNat_inj.1 (hs.clockRate.trans hs'.clockRate.symm)
  have htimer : i.pacer.timerRate = j.pacer.timerRate :=
    Int.ofNat_inj.1 (hs.timerRate.trans hs'.timerRate.symm)
  have hpending := hi.pending.trans hj.pending.symm
  have hphase := hi.phase.trans hj.phase.symm
  have hinstructions := hi.instructions.trans hj.instructions.symm
  have hticks := hi.ticks.trans hj.ticks.symm
  generalize i.pacer = p, j.pacer = q at *
  obtain ⟨⟩ := p
  obtain ⟨⟩ := q
  simp only [Pacer.mk.injEq]
  exact ⟨hclock, htimer, hpending, hphase, hinstructions, hticks⟩

/-- The interpreter with another memory of the keys that the latest instruction saw. -/
def withLastKeys (i : Interpreter) (keys : List Bool) : Interpreter :=
  { i with processor := { i.processor with keys := keys } }

/-- What is known of an interpreter right after a load is all there is to it but for the keys that
the latest instruction saw. -/
theorem JustLoaded.eq_withLastKeys (hi : JustLoaded program font before i)
    (hj : JustLoaded program font before' j) (hs : i.HasSettings s) (hs' : j.HasSettings s)
    (hkeypad : before.machine.keypad = before'.machine.keypad)
    (hsource : before.processor.source = before'.processor.source) :
    j = i.withLastKeys j.processor.keys := by
  have hmachine := hi.machine_eq hj hkeypad
  have hsource := hi.source.trans (hsource.trans hj.source.symm)
  have hdebug := hs.debug.trans hs'.debug.symm
  have hlegacy := hs.legacyStore.trans hs'.legacyStore.symm
  have hrunning := hi.running.trans hj.running.symm
  have hfault := hi.fault.trans hj.fault.symm
  have hpacer := hi.pacer_eq hj hs hs'
  have hloaded := hi.loaded.trans hj.loaded.symm
  obtain ⟨⟨⟩, _, _⟩ := i
  obtain ⟨⟨⟩, _, _⟩ := j
  simp only [withLastKeys, mk.injEq, Processor.mk.injEq]
  exact ⟨⟨hmachine.symm, hsource.symm, hdebug.symm, hlegacy.symm, hrunning.symm, hfault.symm,
    trivial⟩, hpacer.symm, hloaded.symm⟩

/-- A load leaves what it leaves in a new interpreter that has the same settings, keys and random
bytes to come, but for the keys that the latest instruction saw. -/
theorem state_load_eq_fresh {fresh : Interpreter} (hs : i.HasSettings s)
    (hfresh : new s i.processor.source = .ok fresh) (idle : i.machine.busy = false)
    (hfont : font.length = glyphCount * glyphSize) (hprogram : program.length ≤ maxProgramSize) :
    (perform (.load program font) i).state =
      (perform (.load program font) (fresh.withKeypad i.machine.keypad)).state.withLastKeys
        i.processor.keys := by
  have hload : JustLoaded program font i (perform (.load program font) i).state :=
    justLoaded_load idle hfont hprogram
  have hfresh' := eq_of_new hfresh
  have hload' : JustLoaded program font (fresh.withKeypad i.machine.keypad)
      (perform (.load program font) (fresh.withKeypad i.machine.keypad)).state := by
    refine justLoaded_load ?_ hfont hprogram
    obtain ⟨_, -, rfl⟩ := hfresh'
    rfl
  have hset := independent_hasSettings.perform (.load program font) i hs
  have hset' := independent_hasSettings.perform (.load program font) _
    (independent_hasSettings.withMachine fresh { fresh.machine with keypad := i.machine.keypad }
      (hasSettings_new hfresh).1)
  have hsource : (fresh.withKeypad i.machine.keypad).processor.source = i.processor.source := by
    obtain ⟨_, -, rfl⟩ := hfresh'
    rfl
  have heq := hload'.eq_withLastKeys hload hset' hset rfl hsource
  have hkeys : (perform (.load program font) i).state.processor.keys = i.processor.keys := by
    rw [perform, Action.state_map, load_of_fits idle hfont hprogram]
    rfl
  rw [hkeys] at heq
  exact heq

theorem hasSettings_performAll {source : Source} (h : new s source = .ok i)
    (past : List Command) : (performAll past i).HasSettings s :=
  independent_hasSettings.performAll (hasSettings_new h).1 past

/-- The keys that the latest instruction saw are never looked at again. -/
theorem lastKeys_performAll (i : Interpreter) (keys : List Bool) (later : List Command) :
    transcript later (i.withLastKeys keys) = transcript later i ∧
      ∃ keys',
        performAll later (i.withLastKeys keys) = (performAll later i).withLastKeys keys' := by
  have halike : Alike .lastKeys i (i.withLastKeys keys) := .intro rfl trivial
  obtain ⟨htranscript, hstate⟩ := halike.performAll later
  refine ⟨htranscript, ?_⟩
  generalize performAll later i = j, performAll later (i.withLastKeys keys) = j' at hstate
  cases hstate with
  | @intro stack keys' hstack _ =>
    cases hstack
    exact ⟨keys', rfl⟩

/-- An instruction looks at the keys itself. -/
theorem stepProcessor_withLastKeys (running : i.processor.isHalted = false) (keys : List Bool) :
    stepProcessor (i.withLastKeys keys) = stepProcessor i := by
  have hstep : Processor.step (i.withLastKeys keys).processor = Processor.step i.processor :=
    Processor.step_withHidden running i.machine.stack keys
  rw [stepProcessor, onProcessor, Action.on_apply, Action.on_apply, hstep]
  rfl

/-- A load forgets the past.  Take two interpreters with the same settings, whatever has been done
with them, and load the same program and font in both, between instructions and with the same keys
down and the same random bytes to come.  Both loads are accepted, and leave all that is listed; from
then on every run has the same answers, errors and notes in both, and leaves the same but for the
keys that the latest instruction before saw, which the next one does not look at. -/
theorem load_forgets_past {source source' : Source} (hi : new s source = .ok i₀)
    (hj : new s source' = .ok j₀) (past past' : List Command)
    (idle : (performAll past i₀).machine.busy = false)
    (idle' : (performAll past' j₀).machine.busy = false)
    (hkeypad : (performAll past i₀).machine.keypad = (performAll past' j₀).machine.keypad)
    (hsource : (performAll past i₀).processor.source = (performAll past' j₀).processor.source)
    (hfont : font.length = glyphCount * glyphSize) (hprogram : program.length ≤ maxProgramSize) :
    let o := perform (.load program font) (performAll past i₀)
    let o' := perform (.load program font) (performAll past' j₀)
    o.result = .ok .done ∧ o'.result = .ok .done ∧
    JustLoaded program font (performAll past i₀) o.state ∧
    JustLoaded program font (performAll past' j₀) o'.state ∧
    ∀ later : List Command,
      let i := performAll later o.state
      let j := performAll later o'.state
      transcript later o'.state = transcript later o.state ∧
      j = i.withLastKeys j.processor.keys ∧
      (i.processor.isHalted = false → stepProcessor j = stepProcessor i) := by
  intro o o'
  have hloaded : JustLoaded program font (performAll past i₀) o.state :=
    justLoaded_load idle hfont hprogram
  have hloaded' : JustLoaded program font (performAll past' j₀) o'.state :=
    justLoaded_load idle' hfont hprogram
  have hs : o.state.HasSettings s :=
    independent_hasSettings.perform _ _ (hasSettings_performAll hi past)
  have hs' : o'.state.HasSettings s :=
    independent_hasSettings.perform _ _ (hasSettings_performAll hj past')
  have heq := hloaded.eq_withLastKeys hloaded' hs hs' hkeypad hsource
  refine ⟨result_load_of_fits idle hfont hprogram, result_load_of_fits idle' hfont hprogram,
    hloaded, hloaded', fun later ↦ ?_⟩
  intro i j
  obtain ⟨htranscript, keys, hstate⟩ :=
    lastKeys_performAll o.state o'.state.processor.keys later
  rw [← heq] at htranscript hstate
  have hj : j = i.withLastKeys keys := hstate
  refine ⟨htranscript, ?_, fun running ↦ ?_⟩
  · rw [hj]
    rfl
  · rw [hj]
    exact stepProcessor_withLastKeys running keys

/-- A program that jumps to itself. -/
def idling : Bytes := [0x12, 0x00]

/-- Another program, an open call, a running timer and a drawing are forgotten. -/
theorem idling_forgets_past :
    let i : Interpreter := { bare with loaded := false }
    let past : List Command :=
      [.load [0xFF, 0xFF] builtInFont, .push 7, .assign (.delay 9), .drawSprite 3 4 5 fontAddress]
    let load := Command.load idling builtInFont
    transcript [.step, .pop, .tick .nan] (perform load (performAll past i)).state =
      transcript [.step, .pop, .tick .nan] (perform load i).state := by
  intro i past load
  have hi : new {} default = .ok i := rfl
  have hforgets := load_forgets_past hi hi [] past rfl (by decide +kernel) (by decide +kernel) rfl
    length_builtInFont (show idling.length ≤ maxProgramSize by decide)
  obtain ⟨-, -, -, -, hlater⟩ := hforgets
  exact (hlater [.step, .pop, .tick .nan]).1

/-- Not all of the past is forgotten: the keys that the latest instruction saw are left behind.
Here key 3 was down at the last step before the load, and is up again at the load. -/
theorem load_keeps_last_keys :
    ¬ ∀ (s : Settings) (source source' : Source) (i₀ j₀ : Interpreter)
        (past past' : List Command) (program font : Bytes),
      new s source = .ok i₀ → new s source' = .ok j₀ →
      let i := performAll past i₀
      let j := performAll past' j₀
      i.machine.busy = false → j.machine.busy = false →
      i.machine.keypad = j.machine.keypad → i.processor.source = j.processor.source →
      font.length = glyphCount * glyphSize → program.length ≤ maxProgramSize →
      ∀ later, performAll later (perform (.load program font) j).state =
        performAll later (perform (.load program font) i).state := by
  intro h
  let i : Interpreter := { bare with loaded := false }
  let past : List Command :=
    [.load idling builtInFont, .setKey 3 true, .step, .setKey 3 false]
  have hi : new {} default = .ok i := rfl
  have idle : (performAll past i).machine.busy = false := by decide +kernel
  have hkeypad : i.machine.keypad = (performAll past i).machine.keypad := by decide +kernel
  have hsource : i.processor.source = (performAll past i).processor.source := by decide +kernel
  have hstates := h {} default default i i [] past idling builtInFont hi hi rfl idle hkeypad hsource
    length_builtInFont (show idling.length ≤ maxProgramSize by decide) []
  have hkeys := congrArg (fun i ↦ i.processor.keys[3]?) hstates
  revert hkeys
  decide +kernel

end Interpreter

end ChipEight
