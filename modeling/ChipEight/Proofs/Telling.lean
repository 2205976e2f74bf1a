import ChipEight.Proofs.History
import ChipEight.Proofs.Redraw

/-!
# The host is told of every drawing

A host that asks whether the screen has been drawn on is told so just when a program has been loaded
or an instruction that draws has been carried out since it last asked.  Nothing else changes a
pixel, so that a host which looks at the screen only when it is told to misses no change.
-/

namespace ChipEight

variable {P : Screen → Prop}

/-- An event counts as a drawing: a program is loaded, or an instruction that draws is carried
out. -/
def Event.draws : Event → Bool
  | .loaded _ => true
  | .stepped i => (Event.stepped i).instruction?.any (·.op.draws)

/-- To put down each event that is a drawing is to put down whether any of them is. -/
theorem Event.foldl_or_draws (drawn : Bool) (events : List Event) :
    events.foldl (fun drawn e ↦ drawn || e.draws) drawn = (drawn || events.any Event.draws) := by
  induction events generalizing drawn with
  | nil => exact (Bool.or_false _).symm
  | cons e events ih => rw [List.foldl_cons, ih, List.any_cons, Bool.or_assoc]

namespace Interpreter

variable {i j : Interpreter} {drawn : Bool}

/-- A step puts it down if it draws. -/
theorem redraw_stepProcessor (i : Interpreter) :
    (stepProcessor i).state.machine.redraw = (i.machine.redraw || (Event.stepped i).draws) := by
  have hsteps := Processor.steps_step i.processor
  change (Processor.step i.processor).state.machine.redraw = _
  simp only [Event.draws, Event.instruction?, stepProcessor, onProcessor, Action.on_apply]
  generalize (Processor.step i.processor).state = q,
    (Processor.step i.processor).result = answer at hsteps
  cases hsteps with
  | halted _ => exact (Bool.or_false _).symm
  | stopped _ _ => exact (Bool.or_false _).symm
  | passed _ _ _ _ => exact (Bool.or_false _).symm
  | carriedOut _ _ _ _ hm =>
    exact (congrArg View.redraw hm).trans Manual.redraw_after

/-- It is put down whether there has been a drawing, and if not the screen has kept a property. -/
structure PutsDown (P : Screen → Prop) (i : Interpreter) (drawn : Bool) : Prop where
  redraw_eq : i.machine.redraw = drawn
  drawnOr : i.DrawnOr P

/-- Every drawing is put down, and nothing else. -/
theorem accounts_putsDown : Accounts (fun drawn e ↦ drawn || e.draws) (PutsDown P) where
  stepProcessor {i drawn} h := by
    refine ⟨?_, drawnOr_stepProcessor i h.drawnOr⟩
    rw [redraw_stepProcessor, h.redraw_eq]
  payTimers {i drawn} h := by
    have hredraw : i.payTimers.machine.redraw = drawn :=
      invariant_payTimers (P := fun m ↦ m.redraw = drawn) (fun _ hm ↦ hm) h.redraw_eq
    exact ⟨hredraw, invariant_payTimers (fun _ hm ↦ hm.of_eq rfl rfl) h.drawnOr⟩
  countInstructions _ h := ⟨h.redraw_eq, h.drawnOr⟩
  withPending _ h := ⟨h.redraw_eq, h.drawnOr⟩
  withKeypad _ h := ⟨h.redraw_eq, h.drawnOr⟩
  load {i drawn} program font _ := by
    have hredraw := i.machine.redraw_inserted program font
    exact ⟨hredraw.trans (Bool.or_true drawn).symm, .of_redraw hredraw⟩

/-- A question leaves nothing put down. -/
theorem redraw_of_asked {past : List Command} (hpast : past.getLast? = some .consumeRedraw)
    (i : Interpreter) : (performAll past i).machine.redraw = false := by
  obtain ⟨earlier, rfl⟩ := List.getLast?_eq_some_iff.1 hpast
  rw [performAll, List.foldl_append]
  rfl

/-- The host is told of every drawing.  Whatever it does with a new interpreter, it is told that the
screen has been drawn on just when a program has been loaded or an instruction that draws has been
carried out since it last asked, or since the beginning; and if it asks again at once it is told
that there has been nothing.  So it is told whenever the screen is not what it was when it last
asked. -/
theorem host_is_told_of_drawings {s : Settings} {source : Source} (h : new s source = .ok i)
    {past commands : List Command} (hpast : past = [] ∨ past.getLast? = some .consumeRedraw)
    (hc : ∀ c ∈ commands, c.Plays) :
    let before := performAll past i
    let now := performAll commands before
    let events := history commands before
    let asked := perform .consumeRedraw now
    notes commands before = events.flatMap Event.notes ∧
    asked.result = .ok (.flag (events.any Event.draws)) ∧
    (perform .consumeRedraw asked.state).result = .ok (.flag false) ∧
    (now.machine.screen ≠ before.machine.screen → asked.result = .ok (.flag true)) := by
  intro before now events asked
  have hbefore : before.machine.redraw = false := by
    obtain rfl | hpast := hpast
    · exact congrArg Machine.redraw (machine_new h)
    · exact redraw_of_asked hpast i
  have hnow : now.PutsDown (· = before.machine.screen) (events.any Event.draws) := by
    have hstart : before.PutsDown (· = before.machine.screen) false := ⟨hbefore, fun _ ↦ rfl⟩
    have hrun := accounts_putsDown.performAll hc hstart
    rw [Event.foldl_or_draws, Bool.false_or] at hrun
    exact hrun
  have hasked (flag : Bool) (hflag : now.machine.redraw = flag) :
      asked.result = .ok (.flag flag) := by
    rw [← hflag]
    rfl
  refine ⟨notes_eq_history hc before, hasked _ hnow.redraw_eq, rfl, fun hscreen ↦ hasked _ ?_⟩
  by_contra hredraw
  exact hscreen (hnow.drawnOr (Bool.eq_false_of_not_eq_true hredraw))

/-- A program that draws a sprite of no rows. -/
def drawingNothing : Bytes := [0xD0, 0x00]

/-- The host is told of a drawing that changes no pixel. -/
theorem host_is_told_of_nothing :
    let i : Interpreter := { bare with loaded := false }
    let past : List Command := [.load drawingNothing builtInFont, .consumeRedraw]
    let now := performAll [.setKey 0xA true, .step] (performAll past i)
    (perform .consumeRedraw now).result = .ok (.flag true) := by
  intro i past now
  have hnew : new {} default = .ok i := rfl
  have hplays : ∀ c ∈ [Command.setKey 0xA true, .step], c.Plays := by
    simp only [List.forall_mem_cons]
    exact ⟨.setKey _ _, .step, List.forall_mem_nil _⟩
  have hpast : past.getLast? = some .consumeRedraw := rfl
  obtain ⟨-, hasked, -⟩ := host_is_told_of_drawings hnew (.inr hpast) hplays
  have hdraws : (history [.setKey 0xA true, .step] (performAll past i)).any Event.draws = true := by
    decide +kernel
  rw [hdraws] at hasked
  exact hasked

end Interpreter

end ChipEight
