import ChipEight.Desktop.Command
import ChipEight.Proofs.Runs

/-!
# What answering events consists of

A window answers an event by inserting a program, by changing the keys, or not at all.  What both
keep is kept by all events.  An insertion is all or nothing, and the first event that closes the
window is the last one that counts.
-/

namespace ChipEight

open ChipEight.Action (Preserves)

/-- An event at which the window closes: the user asks for it, or presses or releases escape. -/
def DesktopEvent.closes : DesktopEvent → Bool
  | .quit => true
  | .keyDown key | .keyUp key => key = .escape
  | _ => false

/-- The system on which paths lead to what a table says.  A path with a null character is refused,
and other paths that the table does not have lead nowhere. -/
def FileReader.ofTable (table : List (String × Except FileError Bytes)) : FileReader := fun path ↦
  if '\x00' ∈ path.toList then .error .nullByte
  else (table.lookup path).getD (.error (.notOpened 2 "No such file or directory"))

namespace Window

variable {w : Window} {readFile : FileReader} {rom : Bytes} {path : String} {e : DesktopEvent}

/-- The window with other keys down. -/
def withKeypad (w : Window) (k : Keypad) : Window :=
  { w with interpreter := w.interpreter.withKeypad k }

/-- A key of the keypad that a key stands for is one of the sixteen. -/
theorem lt_of_keypadKey?_eq_some {key : KeyboardKey} {k : Nat} (h : key.keypadKey? = some k) :
    k < keyCount := by
  rw [KeyboardKey.keypadKey?, List.idxOf?, List.findIdx?_eq_some_iff_getElem] at h
  exact h.1

/-- The keypad of a window when a key of the keyboard has been pressed or released. -/
def keypadAfter (key : KeyboardKey) (down : Bool) (w : Window) : Keypad :=
  match key.keypadKey? with
  | none => w.interpreter.machine.keypad
  | some k => w.interpreter.machine.keypad.put k down

/-- A key of the keyboard works the keypad and nothing else. -/
theorem setKey_apply (key : KeyboardKey) (down : Bool) (w : Window) :
    setKey key down w = ⟨w.withKeypad (keypadAfter key down w), .ok (), []⟩ := by
  unfold setKey keypadAfter
  cases hkey : key.keypadKey? with
  | none => rfl
  | some k =>
    have hinside : (0 : Int) ≤ k ∧ (k : Int) < keyCount :=
      ⟨Int.natCast_nonneg k, Int.ofNat_lt.2 (lt_of_keypadKey?_eq_some hkey)⟩
    have hset := w.interpreter.machine.keypad.set_of_inside down hinside
    simp only [onKeypad, onInterpreter, Interpreter.onMachine, Machine.onKeypad, Action.on_apply,
      hset]
    rfl

theorem setKey_then_stay (key : KeyboardKey) (down : Bool) (w : Window) :
    (do setKey key down; pure true : Action Window Bool) w =
      ⟨w.withKeypad (keypadAfter key down w), .ok true, []⟩ := by
  rw [Action.bind_of_ok (by rw [setKey_apply]), setKey_apply]
  rfl

/-- The window after a list of commands, each with the files that are there at its time, whether or
not each of them succeeds. -/
def performAll (commands : List (FileReader × WindowCommand)) (w : Window) : Window :=
  commands.foldl (fun w c ↦ (perform c.1 c.2 w).state) w

/-! ## Insertions -/

/-- Between instructions a program that fits is loaded and remembered. -/
theorem insert_of_fits (idle : w.interpreter.machine.busy = false)
    (h : rom.length ≤ maxProgramSize) :
    insert rom w =
      ⟨{ w with
          interpreter := (Interpreter.load rom builtInFont w.interpreter).state
          rom := rom },
        .ok (), [.programLoaded rom.length]⟩ := by
  have hload := Interpreter.load_of_ok (Machine.load_of_accepted idle length_builtInFont h)
  have hx : (onInterpreter (Interpreter.load rom builtInFont) w).result = .ok () :=
    congrArg Outcome.result hload
  rw [insert, Action.bind_of_ok hx, hload]
  simp only [onInterpreter, Action.on_apply, hload]
  rfl

/-- A program that does not fit is refused, and nothing changes. -/
theorem insert_of_too_large (idle : w.interpreter.machine.busy = false)
    (h : maxProgramSize < rom.length) :
    insert rom w = ⟨w, .error (.ofCause (.programTooLarge rom.length maxProgramSize)), []⟩ := by
  have hload := Interpreter.load_of_too_large idle length_builtInFont h
  have hx : (onInterpreter (Interpreter.load rom builtInFont) w).result = .error _ :=
    congrArg Outcome.result hload
  rw [insert, Action.bind_of_error hx]
  simp only [onInterpreter, Action.on_apply, hload]

/-- A file that cannot be read changes nothing. -/
theorem insertFile_of_unreadable {e : FileError} (h : readFile path = .error e) :
    (insertFile readFile path w).state = w ∧ (insertFile readFile path w).result ≠ .ok true := by
  unfold insertFile
  rw [h]
  dsimp only
  cases e.refusal? with
  | some r => exact ⟨rfl, fun h ↦ nomatch h⟩
  | none => exact ⟨rfl, fun h ↦ nomatch h⟩

/-- A file that can be read and fits is inserted. -/
theorem insertFile_of_fits {contents : Bytes} (idle : w.interpreter.machine.busy = false)
    (hread : readFile path = .ok contents) (h : contents.length ≤ maxProgramSize) :
    (insertFile readFile path w).state = (insert contents w).state ∧
      (insertFile readFile path w).result = .ok true := by
  unfold insertFile
  rw [hread]
  simp only [insert_of_fits idle h]
  exact ⟨trivial, trivial⟩

/-- A file that is too large changes nothing. -/
theorem insertFile_of_too_large {contents : Bytes} (idle : w.interpreter.machine.busy = false)
    (hread : readFile path = .ok contents) (h : maxProgramSize < contents.length) :
    (insertFile readFile path w).state = w ∧ (insertFile readFile path w).result = .ok false := by
  unfold insertFile
  rw [hread]
  simp only [insert_of_too_large idle h, Error.ofCause]
  exact ⟨trivial, trivial⟩

/-- What insertions keep is kept by files that are inserted. -/
theorem preserves_insertFile {P : Window → Prop} (hinsert : ∀ rom, Preserves P (insert rom))
    (readFile : FileReader) (path : String) : Preserves P (insertFile readFile path) := by
  have hnoted (n : Note) : Preserves P (do Action.note n; pure false) :=
    (Preserves.of_state_eq fun _ ↦ rfl).bind fun _ ↦ .pure _
  unfold insertFile
  cases readFile path with
  | error e =>
    dsimp only
    cases e.refusal? with
    | some r => exact .fail _
    | none => exact hnoted _
  | ok contents =>
    intro w hw
    have hcontents := hinsert contents w hw
    dsimp only
    split
    · exact hcontents
    · exact hcontents
    · exact hcontents

/-! ## What events keep -/

/-- A property of windows that is kept by an insertion and does not depend on the keys or on the
events that wait. -/
structure Lasting (P : Window → Prop) : Prop where
  insert : ∀ rom, Preserves P (insert rom)
  withKeypad : ∀ w k, P w → P (w.withKeypad k)
  withQueue : ∀ w events, P w → P { w with queue := events }

namespace Lasting

variable {P : Window → Prop} (h : Lasting P)
include h

theorem setKey (key : KeyboardKey) (down : Bool) : Preserves P (setKey key down) := by
  intro w hw
  rw [setKey_apply]
  exact h.withKeypad w _ hw

/-- A lasting property is kept by whatever happens to a window. -/
theorem react (readFile : FileReader) (event : DesktopEvent) :
    Preserves P (react readFile event) := by
  cases event with
  | quit => exact .pure _
  | keyDown key =>
    refine .ite (.pure _) (.ite ?_ ?_)
    · refine (Preserves.gets rom).bind fun rom ↦ (h.insert rom).bind fun _ ↦ ?_
      exact (Preserves.of_state_eq fun _ ↦ rfl).bind fun _ ↦ .pure _
    · exact (h.setKey key true).bind fun _ ↦ .pure _
  | keyUp key =>
    refine .ite (.pure _) ?_
    exact (h.setKey key false).bind fun _ ↦ .pure _
  | focusLost =>
    have hrelease : Preserves P (onKeypad Keypad.clear) := fun w hw ↦ h.withKeypad w _ hw
    exact hrelease.bind fun _ ↦ .pure _
  | focusGained => exact .pure _
  | fileDropped path => exact (preserves_insertFile h.insert readFile path).bind fun _ ↦ .pure _

theorem reactAll (readFile : FileReader) (events : List DesktopEvent) :
    Preserves P (reactAll readFile events) := by
  induction events with
  | nil => exact .pure _
  | cons event events ih => exact (h.react readFile event).bind fun _ ↦ ih.ite (.pure _)

theorem handleEvents (readFile : FileReader) : Preserves P (handleEvents readFile) := by
  refine (Preserves.gets queue).bind fun events ↦ ?_
  have hqueue : Preserves P (.modify fun w ↦ { w with queue := [] }) :=
    fun w hw ↦ h.withQueue w [] hw
  exact hqueue.bind fun _ ↦ h.reactAll readFile events

end Lasting

/-! ## Answers -/

theorem react_of_closes (h : e.closes = true) : react readFile e w = ⟨w, .ok false, []⟩ := by
  cases e with
  | quit => rfl
  | keyDown key =>
    rw [react, if_pos (of_decide_eq_true h)]
    rfl
  | keyUp key =>
    rw [react, if_pos (of_decide_eq_true h)]
    rfl
  | focusLost => cases h
  | focusGained => cases h
  | fileDropped path => cases h

/-- An event that does not close the window leaves it open, unless answering it fails. -/
theorem result_react_of_not_closes (h : e.closes = false) {opened : Bool}
    (hr : (react readFile e w).result = .ok opened) : opened = true := by
  have hopen {α : Type} {x : Action Window α}
      (hx : ((do let _ ← x; pure true : Action Window Bool) w).result = .ok opened) :
      opened = true := by
    cases hr : (x w).result with
    | error _ =>
      rw [Action.bind_of_error hr] at hx
      cases hx
    | ok a =>
      rw [Action.bind_of_ok hr] at hx
      cases hx
      rfl
  cases e with
  | quit => cases h
  | keyDown key =>
    have hkey : key ≠ .escape := of_decide_eq_false h
    rw [react, if_neg hkey] at hr
    split at hr
    · rw [← bind_assoc, ← bind_assoc] at hr
      exact hopen hr
    · exact hopen hr
  | keyUp key =>
    have hkey : key ≠ .escape := of_decide_eq_false h
    rw [react, if_neg hkey] at hr
    exact hopen hr
  | focusLost => exact hopen hr
  | focusGained =>
    cases hr
    rfl
  | fileDropped path => exact hopen hr

/-- The events that count: those in front of the first one that closes the window. -/
def answered (events : List DesktopEvent) : List DesktopEvent :=
  events.takeWhile fun e ↦ !e.closes

theorem reactAll_cons_of_closes {events : List DesktopEvent} (h : e.closes = true) :
    reactAll readFile (e :: events) w = ⟨w, .ok false, []⟩ := by
  have hr : react readFile e w = ⟨w, .ok false, []⟩ := react_of_closes h
  rw [reactAll, Action.bind_of_ok (congrArg Outcome.result hr), hr]
  rfl

/-- The events that count are all that is answered, and the window stays open if they are all. -/
theorem reactAll_eq_answered (readFile : FileReader) (events : List DesktopEvent) :
    reactAll readFile events =
      (fun _ ↦ !events.any DesktopEvent.closes) <$> reactAll readFile (answered events) := by
  induction events with
  | nil => rfl
  | cons e events ih =>
    funext w
    cases hc : e.closes with
    | true =>
      rw [reactAll_cons_of_closes hc, answered, List.takeWhile_cons_of_neg (by simp [hc])]
      simp [hc, reactAll, Except.map]
    | false =>
      rw [answered, List.takeWhile_cons_of_pos (by simp [hc]), List.any_cons, hc, Bool.false_or]
      simp only [reactAll, map_bind]
      cases hr : (react readFile e w).result with
      | error _ => rw [Action.bind_of_error hr, Action.bind_of_error hr]
      | ok opened =>
        obtain rfl := result_react_of_not_closes hc hr
        rw [Action.bind_of_ok hr, Action.bind_of_ok hr, if_pos rfl, if_pos rfl, ih]
        rfl

end Window

end ChipEight
