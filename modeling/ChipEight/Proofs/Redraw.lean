import ChipEight.Proofs.Commands

/-!
# Redrawing

Only clearing and drawing change the screen, and both put it down that the screen has been drawn on;
so does a load.  A host that looks at the screen only when this has been put down misses nothing.
-/

namespace ChipEight

/-- Instructions that draw on the screen. -/
def Opcode.draws : Opcode → Bool
  | .clearScreen | .draw => true
  | _ => false

namespace Manual

variable {legacyStore : Bool} {i : Instruction} {byte : UInt8} {v : View}

/-- The screen has been drawn on if it was before or the instruction draws. -/
theorem redraw_after : (after legacyStore i byte v).redraw = (v.redraw || i.op.draws) := by
  obtain ⟨op, w⟩ := i
  cases op with
  | clearScreen => exact (Bool.or_true _).symm
  | draw => exact (Bool.or_true _).symm
  | _ => exact (Bool.or_false _).symm

/-- An instruction that does not draw changes no pixel. -/
theorem lit_after (h : i.op.draws = false) : (after legacyStore i byte v).lit = v.lit := by
  obtain ⟨op, w⟩ := i
  cases op with
  | clearScreen => cases h
  | draw => cases h
  | _ => rfl

end Manual

/-- The screen has been drawn on since the host last asked, or else it has a property. -/
def Machine.DrawnOr (P : Screen → Prop) (m : Machine) : Prop := m.redraw = false → P m.screen

variable {P : Screen → Prop}

namespace Machine.DrawnOr

variable {m n : Machine}

theorem of_eq (h : m.DrawnOr P) (hscreen : n.screen = m.screen) (hredraw : n.redraw = m.redraw) :
    n.DrawnOr P :=
  fun hn ↦ hscreen ▸ h (hredraw ▸ hn)

theorem of_redraw (h : m.redraw = true) : m.DrawnOr P := by
  intro hm
  rw [h] at hm
  cases hm

theorem after {legacyStore : Bool} {i : Instruction} {byte : UInt8} (h : m.DrawnOr P)
    (hn : n.view = Manual.after legacyStore i byte m.view) : n.DrawnOr P := by
  intro hredraw
  have hboth : (m.redraw || i.op.draws) = false := by
    have hview : n.view.redraw = (m.redraw || i.op.draws) := hn ▸ Manual.redraw_after
    exact hview.symm.trans hredraw
  obtain ⟨hm, hi⟩ := Bool.or_eq_false_iff.1 hboth
  have hlit : n.view.lit = m.view.lit := hn ▸ Manual.lit_after hi
  have hscreen : n.screen = m.screen := Screen.ext_isLit fun x y ↦ congrFun (congrFun hlit x) y
  exact hscreen ▸ h hm

end Machine.DrawnOr

theorem Processor.drawnOr_step {p : Processor} (h : p.machine.DrawnOr P) :
    (step p).state.machine.DrawnOr P := by
  have hsteps := steps_step p
  generalize (step p).state = q, (step p).result = answer at hsteps
  cases hsteps with
  | halted _ => exact h
  | stopped _ _ => exact h.of_eq rfl rfl
  | passed _ _ _ _ => exact h.of_eq rfl rfl
  | carriedOut _ _ _ _ hm => exact h.after hm

namespace Interpreter

open ChipEight.Action (Preserves)

variable {i : Interpreter}

/-- The screen has been drawn on since the host last asked, or else it has a property. -/
def DrawnOr (P : Screen → Prop) (i : Interpreter) : Prop := i.machine.DrawnOr P

theorem drawnOr_stepProcessor : Preserves (DrawnOr P) stepProcessor :=
  fun _ h ↦ Processor.drawnOr_step h

theorem drawnOr_endTurn (h : i.DrawnOr P) : i.endTurn.DrawnOr P :=
  invariant_endTurn (fun _ hm ↦ hm.of_eq rfl rfl) h

theorem drawnOr_tick (dt : Binary64) : Preserves (DrawnOr P) (tick dt) := by
  have hturn : Preserves (DrawnOr P) turn :=
    invariant_turn drawnOr_stepProcessor fun _ ↦ drawnOr_endTurn
  have haccrue : Preserves (DrawnOr P) (accrue dt) := fun _ h ↦ h
  exact invariant_tick (invariant_advance hturn haccrue)

theorem redraw_load {program font : Bytes} (h : (load program font i).result = .ok ()) :
    (load program font i).state.machine.redraw = true := by
  obtain ⟨e, hm⟩ | hm := i.machine.load_cases program font
  · rw [load_of_error hm] at h
    cases h
  · rw [load_of_ok hm]
    exact Machine.redraw_inserted _ program font

/-- A load that is refused leaves the screen alone. -/
theorem drawnOr_load (program font : Bytes) : Preserves (DrawnOr P) (load program font) := by
  intro i h
  obtain ⟨e, hm⟩ | hm := i.machine.load_cases program font
  · rw [load_of_error hm]
    exact h
  · exact .of_redraw (redraw_load (congrArg Outcome.result (load_of_ok hm)))

end Interpreter

end ChipEight
