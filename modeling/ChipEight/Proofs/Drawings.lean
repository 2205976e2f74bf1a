import ChipEight.Proofs.Blitting
import Mathlib.Algebra.Group.Nat.Even

/-!
# The order of drawings does not matter

Drawing inverts pixels and leaves memory alone, so a pixel is in the end what it was if an even
number of drawings have it under their bits, and inverted if an odd number have.  The number does
not depend on the order of the drawings, and an even number of equal ones does not count.
-/

namespace ChipEight

namespace Interpreter

variable {i : Interpreter} {d : Drawing} {ds es : List Drawing}

/-- The interpreter after a list of drawings. -/
def drawAll (ds : List Drawing) (i : Interpreter) : Interpreter :=
  performAll (ds.map Drawing.command) i

@[simp]
theorem drawAll_nil (i : Interpreter) : drawAll [] i = i := rfl

theorem drawAll_cons (d : Drawing) (ds : List Drawing) (i : Interpreter) :
    drawAll (d :: ds) i = drawAll ds (perform d.command i).state := rfl

/-- The number of drawings that have a pixel under their bits. -/
def inkings (ds : List Drawing) (memory : Memory) (px py : Nat) : Nat :=
  ds.countP fun d ↦ d.inks memory px py

/-- One drawing before others inverts its pixels once more. -/
theorem xor_odd_inkings_cons (lit : Bool) (d : Drawing) (ds : List Drawing) (memory : Memory)
    (px py : Nat) :
    ((lit ^^ d.inks memory px py) ^^ decide (Odd (inkings ds memory px py))) =
      (lit ^^ decide (Odd (inkings (d :: ds) memory px py))) := by
  rw [Bool.xor_assoc, inkings, inkings, List.countP_cons]
  cases d.inks memory px py with
  | false => simp
  | true => simp only [if_true, Nat.odd_add_one, decide_not, Bool.true_xor]

/-- A list of drawings changes the screen alone, and notes that it has been drawn on.  It inverts
the pixels that an odd number of them have under their bits. -/
theorem drawAll_of_fits (fits : ∀ d ∈ ds, d.Fits) (i : Interpreter) :
    ∃ screen,
      drawAll ds i =
        i.withMachine { i.machine with
          screen := screen
          redraw := i.machine.redraw || !ds.isEmpty } ∧
      ∀ px py, screen.isLit px py =
        (i.machine.screen.isLit px py ^^ decide (Odd (inkings ds i.machine.memory px py))) := by
  induction ds generalizing i with
  | nil =>
    refine ⟨i.machine.screen, ?_, fun px py ↦ by simp [inkings]⟩
    simp only [List.isEmpty_nil, Bool.not_true, Bool.or_false]
    rfl
  | cons d ds ih =>
    obtain ⟨hd, hds⟩ := List.forall_mem_cons.1 fits
    obtain ⟨screen, hrun, hlit⟩ := ih hds (perform d.command i).state
    rw [perform_of_fits hd] at hrun hlit
    refine ⟨screen, ?_, fun px py ↦ ?_⟩
    · rw [drawAll_cons, perform_of_fits hd]
      refine hrun.trans ?_
      simp only [List.isEmpty_cons, Bool.not_false, Bool.or_true]
      rfl
    · refine (hlit px py).trans ?_
      rw [← xor_odd_inkings_cons, ← (d.inverts_drawnOn hd i.machine).isLit]
      rfl

/-- Drawings that invert the same pixels lead to the same screen. -/
theorem screen_drawAll_congr (hds : ∀ d ∈ ds, d.Fits) (hes : ∀ d ∈ es, d.Fits) (i : Interpreter)
    (heven : ∀ px py, Odd (inkings ds i.machine.memory px py) ↔
      Odd (inkings es i.machine.memory px py)) :
    (drawAll ds i).machine.screen = (drawAll es i).machine.screen := by
  obtain ⟨screen, hrun, hlit⟩ := drawAll_of_fits hds i
  obtain ⟨screen', hrun', hlit'⟩ := drawAll_of_fits hes i
  rw [hrun, hrun']
  show screen = screen'
  refine Screen.ext_isLit fun px py ↦ ?_
  rw [hlit, hlit', decide_eq_decide.2 (heven px py)]

/-- Equal drawings apart, those with a pixel under their bits remain. -/
theorem inkings_filter_ne (d : Drawing) (ds : List Drawing) (memory : Memory) (px py : Nat) :
    inkings ds memory px py =
      inkings (ds.filter (· ≠ d)) memory px py +
        if d.inks memory px py then ds.count d else 0 := by
  induction ds with
  | nil => simp [inkings]
  | cons e ds ih =>
    simp only [inkings] at ih ⊢
    rw [List.countP_cons, ih, List.count_cons, List.filter_cons]
    by_cases he : e = d
    · subst he
      cases hinks : e.inks memory px py with
      | false => simp
      | true => simp [Nat.add_assoc]
    · simp only [ne_eq, he, not_false_eq_true, decide_true, if_true, List.countP_cons, beq_iff_eq,
        if_false, Nat.add_zero]
      omega

/-- An even number of equal drawings does not count. -/
theorem odd_inkings_filter_ne (heven : Even (ds.count d)) (memory : Memory) (px py : Nat) :
    Odd (inkings (ds.filter (· ≠ d)) memory px py) ↔ Odd (inkings ds memory px py) := by
  rw [inkings_filter_ne d ds]
  split
  · rw [Nat.odd_add, iff_true_right heven]
  · rw [Nat.add_zero]

/-- Drawing twice restores the screen. -/
theorem screen_drawAll_twice (h : d.Fits) (i : Interpreter) :
    (drawAll [d, d] i).machine.screen = i.machine.screen := by
  have hfits : ∀ e ∈ [d, d], e.Fits := by simp [h]
  have hnone : ∀ e ∈ ([] : List Drawing), e.Fits := by simp
  refine screen_drawAll_congr hfits hnone i fun px py ↦ ?_
  rw [← odd_inkings_filter_ne (d := d) (by simp)]
  simp

/-- A drawing after an equal one finds a collision exactly if a pixel under the bits was off before
the first, which has lit it. -/
theorem collision_drawnOn_again (h : d.Fits) (i : Interpreter) :
    (d.drawnOn (perform d.command i).state.machine).2 = true ↔
      ∃ px py, d.inks i.machine.memory px py = true ∧ i.machine.screen.isLit px py = false := by
  have hmachine : (perform d.command i).state.machine =
      { i.machine with screen := (d.drawnOn i.machine).1, redraw := true } := by
    rw [perform_of_fits h]
    rfl
  have hcollision := (d.inverts_drawnOn h (perform d.command i).state.machine).collision
  simp only [hmachine, Bool.false_eq_true, false_or] at hcollision
  rw [hmachine, hcollision]
  refine exists_congr fun px ↦ exists_congr fun py ↦ and_congr_right fun hinks ↦ ?_
  have hlit : (d.drawnOn i.machine).1.isLit px py = (i.machine.screen.isLit px py ^^ true) := by
    rw [(d.inverts_drawnOn h i.machine).isLit, hinks]
  rw [hlit, Bool.xor_true, Bool.not_eq_true']

/-- Drawings in another order lead to the same state.  Without a drawing that comes an even number
of times they lead to the same screen; so two equal ones in a row cancel out, and the second of them
finds a collision exactly if a pixel under its bits was off before the first. -/
theorem drawings_commute_and_cancel (fits : ∀ d ∈ ds, d.Fits) (i : Interpreter) :
    (∀ es, ds.Perm es → drawAll es i = drawAll ds i) ∧
    (∀ d, Even (ds.count d) →
      (drawAll (ds.filter (· ≠ d)) i).machine.screen = (drawAll ds i).machine.screen) ∧
    ∀ before d after, ds = before ++ d :: d :: after →
      let j := drawAll before i
      (drawAll [d, d] j).machine.screen = j.machine.screen ∧
      ∃ collision,
        (perform d.command (perform d.command j).state).result = .ok (.flag collision) ∧
        (collision = true ↔
          ∃ px py, d.inks j.machine.memory px py = true ∧
            j.machine.screen.isLit px py = false) := by
  refine ⟨fun es hperm ↦ ?order, fun d heven ↦ ?removal, ?adjacent⟩
  case order =>
    have hes : ∀ d ∈ es, d.Fits := fun d hd ↦ fits d (hperm.mem_iff.2 hd)
    have hscreen : (drawAll ds i).machine.screen = (drawAll es i).machine.screen :=
      screen_drawAll_congr fits hes i fun px py ↦ by
        rw [inkings, inkings, hperm.countP_eq]
    obtain ⟨screen, hrun, -⟩ := drawAll_of_fits fits i
    obtain ⟨screen', hrun', -⟩ := drawAll_of_fits hes i
    rw [hrun, hrun'] at hscreen
    obtain rfl : screen = screen' := hscreen
    rw [hrun, hrun', hperm.isEmpty_eq]
  case removal =>
    have hrest : ∀ e ∈ ds.filter (· ≠ d), e.Fits := fun e he ↦ fits e (List.mem_filter.1 he).1
    exact screen_drawAll_congr hrest fits i (odd_inkings_filter_ne heven i.machine.memory)
  case adjacent =>
    rintro before d after rfl j
    have hd : d.Fits := fits d (by simp)
    exact ⟨screen_drawAll_twice hd j, _, congrArg Outcome.result (perform_of_fits hd),
      collision_drawnOn_again hd j⟩

/-- Two sprites across each other, the first of them drawn before and after: only the second shows,
and drawn again it goes out with a collision. -/
theorem cross_cancels_out :
    let i := performAll [.writeBlock 0x300 [0xF0, 0x80, 0x80]] bare
    let wide : Drawing := ⟨-2, -1, 1, 0x300⟩
    let tall : Drawing := ⟨62, 31, 3, 0x300⟩
    (drawAll [wide, tall, wide] i).machine.screen = (drawAll [tall] i).machine.screen ∧
      drawAll [tall, wide, wide] i = drawAll [wide, tall, wide] i ∧
      (drawAll [tall, tall] i).machine.screen = i.machine.screen ∧
      (perform tall.command (perform tall.command i).state).result = .ok (.flag true) := by
  intro i wide tall
  have hcrossFits : ∀ d ∈ [wide, tall, wide], d.Fits := by decide
  have htwiceFits : ∀ d ∈ [tall, tall], d.Fits := by decide
  have hcross := drawings_commute_and_cancel hcrossFits i
  have htwice := drawings_commute_and_cancel htwiceFits i
  obtain ⟨hscreen, collision, hresult, hcollision⟩ := htwice.2.2 [] tall [] rfl
  have hrest : [wide, tall, wide].filter (· ≠ wide) = [tall] := by decide +kernel
  have hremoved := hcross.2.1 wide ⟨1, rfl⟩
  rw [hrest] at hremoved
  have hperm : [wide, tall, wide].Perm [tall, wide, wide] := .swap tall wide [wide]
  rw [drawAll_nil] at hscreen hresult hcollision
  refine ⟨hremoved.symm, hcross.1 _ hperm, hscreen, ?_⟩
  rw [hcollision.2 ⟨62, 31, by decide +kernel⟩] at hresult
  exact hresult

end Interpreter

end ChipEight
