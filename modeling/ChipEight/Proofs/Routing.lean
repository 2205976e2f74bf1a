import ChipEight.Proofs.Answering
import ChipEight.Proofs.Halting
import Mathlib.Data.List.Nodup

/-!
# The keypad follows the keyboard

Each of the sixteen keys listens to one key of the keyboard, and all of them to the loss of the
focus.  After any list of events a key is as the last event left it that tells something of it, and
as it was before if there is none.  Programs that are inserted on the way make no difference, and
what comes behind the event that closes the window has no effect.
-/

namespace ChipEight

open ChipEight.Action (Preserves)

namespace KeyboardKey

/-- No two keys of the keypad listen to the same key. -/
theorem nodup_layout : layout.Nodup := by decide

/-- A key stands for the key of the keypad at whose place it is in the layout. -/
theorem keypadKey?_eq_some_iff {key : KeyboardKey} {k : Nat} :
    key.keypadKey? = some k ↔ layout[k]? = some key := by
  rw [keypadKey?, List.idxOf?, List.findIdx?_eq_some_iff_getElem]
  constructor
  · rintro ⟨hk, heq, -⟩
    rw [List.getElem?_eq_getElem hk, eq_of_beq heq]
  · intro h
    obtain ⟨hk, rfl⟩ := List.getElem?_eq_some_iff.1 h
    refine ⟨hk, beq_self_eq_true _, fun j hj heq ↦ ?_⟩
    have hjk : j = k := (nodup_layout.getElem_inj_iff).1 (eq_of_beq heq)
    omega

end KeyboardKey

/-- What an event tells of the key of the keypad that listens to `key`: that it is down, or that it
is up. -/
def DesktopEvent.tells? (key : KeyboardKey) : DesktopEvent → Option Bool
  | .keyDown k => if k = key then some true else none
  | .keyUp k => if k = key then some false else none
  | .focusLost => some false
  | _ => none

/-- Events that do not concern the keypad: the current program is inserted again, a file is dropped,
or a key of the keyboard is pressed or released to which no key of the keypad listens. -/
inductive DesktopEvent.SparesKeys : DesktopEvent → Prop
  | reinsert : SparesKeys (.keyDown .reinsert)
  | fileDropped (path : String) : SparesKeys (.fileDropped path)
  | keyDown {key : KeyboardKey} : key ∉ KeyboardKey.layout → SparesKeys (.keyDown key)
  | keyUp {key : KeyboardKey} : key ∉ KeyboardKey.layout → SparesKeys (.keyUp key)

namespace Window

variable {w : Window} {readFile : FileReader} {e : DesktopEvent} {key : KeyboardKey} {k : Nat}

/-- The keypad of the interpreter in a window. -/
def keypad (w : Window) : Keypad := w.interpreter.machine.keypad

/-! ## Single events -/

/-- An insertion leaves the keys alone, also one that is refused. -/
theorem keypad_insert (before : Keypad) (rom : Bytes) :
    Preserves (fun w ↦ w.keypad = before) (insert rom) := by
  have hload : Preserves (fun w ↦ w.keypad = before)
      (onInterpreter (Interpreter.load rom builtInFont)) := by
    intro w hw
    change (Interpreter.load rom builtInFont w.interpreter).state.machine.keypad = before
    obtain ⟨e, hm⟩ | hm := w.interpreter.machine.load_cases rom builtInFont
    · rw [Interpreter.load_of_error hm]
      exact hw
    · rw [Interpreter.load_of_ok hm]
      exact (Machine.keypad_inserted _ rom builtInFont).trans hw
  exact hload.bind fun _ _ hw ↦ hw

theorem keypad_reinsert (w : Window) :
    (react readFile (.keyDown .reinsert) w).state.keypad = w.keypad := by
  have hreact : Preserves (fun v ↦ v.keypad = w.keypad) (react readFile (.keyDown .reinsert)) := by
    rw [react, if_neg (by decide), if_pos rfl]
    refine (Preserves.gets rom).bind fun rom ↦ (keypad_insert _ rom).bind fun _ ↦ ?_
    exact (Preserves.of_state_eq fun _ ↦ rfl).bind fun _ ↦ .pure _
  exact hreact w rfl

theorem keypad_fileDropped (path : String) (w : Window) :
    (react readFile (.fileDropped path) w).state.keypad = w.keypad := by
  have hreact : Preserves (fun v ↦ v.keypad = w.keypad) (react readFile (.fileDropped path)) :=
    (preserves_insertFile (keypad_insert _) readFile path).bind fun _ ↦ .pure _
  exact hreact w rfl

/-- A key of the keyboard sets the key of the keypad that listens to it, and no other. -/
theorem isDown_setKey (hk : KeyboardKey.layout[k]? = some key) (key' : KeyboardKey) (down : Bool)
    (w : Window) :
    (setKey key' down w).state.keypad.isDown k =
      if key' = key then down else w.keypad.isDown k := by
  rw [setKey_apply]
  change (keypadAfter key' down w).isDown k = _
  unfold keypadAfter
  cases hkey : key'.keypadKey? with
  | none =>
    have hne : key' ≠ key := by
      rintro rfl
      rw [KeyboardKey.keypadKey?_eq_some_iff.2 hk] at hkey
      cases hkey
    rw [if_neg hne]
    rfl
  | some k' =>
    have hk' := KeyboardKey.keypadKey?_eq_some_iff.1 hkey
    have hsame : k = k' ↔ key' = key := by
      constructor
      · rintro rfl
        exact Option.some_inj.1 (hk'.symm.trans hk)
      · rintro rfl
        exact Option.some_inj.1 ((KeyboardKey.keypadKey?_eq_some_iff.2 hk).symm.trans hkey)
    dsimp only
    rw [Keypad.isDown_put _ (lt_of_keypadKey?_eq_some hkey)]
    simp only [hsame]
    rfl

/-- After an event a key is as the event tells, or as it was before. -/
theorem isDown_react (hk : KeyboardKey.layout[k]? = some key) (hopen : e.closes = false)
    (w : Window) :
    (react readFile e w).state.keypad.isDown k = (e.tells? key).getD (w.keypad.isDown k) := by
  have hmem : key ∈ KeyboardKey.layout := List.mem_of_getElem? hk
  have hset (key' : KeyboardKey) (down : Bool) :
      ((do setKey key' down; pure true : Action Window Bool) w).state.keypad.isDown k =
        (if key' = key then some down else none).getD (w.keypad.isDown k) := by
    have hkey := isDown_setKey hk key' down w
    rw [Action.bind_of_ok (by rw [setKey_apply])]
    refine hkey.trans ?_
    split <;> rfl
  cases e with
  | quit => cases hopen
  | keyDown key' =>
    by_cases hreinsert : key' = .reinsert
    · have hne : key' ≠ key := by
        rintro rfl
        exact absurd (hreinsert ▸ hmem) (by decide)
      rw [DesktopEvent.tells?, if_neg hne, hreinsert, keypad_reinsert]
      rfl
    · rw [react, if_neg (of_decide_eq_false hopen), if_neg hreinsert]
      exact hset key' true
  | keyUp key' =>
    rw [react, if_neg (of_decide_eq_false hopen)]
    exact hset key' false
  | focusLost => exact Keypad.isDown_released k
  | focusGained => rfl
  | fileDropped path =>
    rw [keypad_fileDropped]
    rfl

theorem keypad_of_sparesKeys (h : e.SparesKeys) (readFile : FileReader) (w : Window) :
    (react readFile e w).state.keypad = w.keypad := by
  have hkeep (key : KeyboardKey) (hkey : key ∉ KeyboardKey.layout) (down : Bool) :
      keypadAfter key down w = w.keypad := by
    have hnone : key.keypadKey? = none := by
      cases h : key.keypadKey? with
      | none => rfl
      | some k => exact absurd (List.mem_of_getElem? (KeyboardKey.keypadKey?_eq_some_iff.1 h)) hkey
    rw [keypadAfter, hnone]
    rfl
  cases h with
  | reinsert => exact keypad_reinsert w
  | fileDropped path => exact keypad_fileDropped path w
  | @keyDown key hkey =>
    by_cases hescape : key = .escape
    · have hcloses : (DesktopEvent.keyDown key).closes = true := decide_eq_true hescape
      rw [react_of_closes hcloses]
    · by_cases hreinsert : key = .reinsert
      · rw [hreinsert]
        exact keypad_reinsert w
      · rw [react, if_neg hescape, if_neg hreinsert, Action.bind_of_ok (by rw [setKey_apply]),
          setKey_apply]
        exact hkeep key hkey true
  | @keyUp key hkey =>
    by_cases hescape : key = .escape
    · have hcloses : (DesktopEvent.keyUp key).closes = true := decide_eq_true hescape
      rw [react_of_closes hcloses]
    · rw [react, if_neg hescape, Action.bind_of_ok (by rw [setKey_apply]), setKey_apply]
      exact hkeep key hkey false

/-! ## Lists of events -/

/-- After events none of which fails or closes the window a key is as the last one left it that
tells something of it. -/
theorem isDown_reactAll (hk : KeyboardKey.layout[k]? = some key) {events : List DesktopEvent}
    (hopen : ∀ e ∈ events, e.closes = false) {opened : Bool} {w : Window}
    (hr : (reactAll readFile events w).result = .ok opened) :
    (reactAll readFile events w).state.keypad.isDown k =
      (events.filterMap (·.tells? key)).getLast?.getD (w.keypad.isDown k) := by
  induction events generalizing w with
  | nil => rfl
  | cons e events ih =>
    obtain ⟨he, hrest⟩ := List.forall_mem_cons.1 hopen
    rw [reactAll] at hr ⊢
    cases hfirst : (react readFile e w).result with
    | error _ =>
      rw [Action.bind_of_error hfirst] at hr
      cases hr
    | ok b =>
      obtain rfl := result_react_of_not_closes he hfirst
      rw [Action.bind_of_ok hfirst, if_pos rfl] at hr ⊢
      rw [ih hrest hr, isDown_react hk he]
      cases htells : e.tells? key with
      | none => rw [List.filterMap_cons_none htells, Option.getD_none]
      | some down => rw [List.filterMap_cons_some htells, List.getLast?_cons, Option.getD_some,
          Option.getD_some]

/-- The answer to the events that wait, and what it leaves, follow from those that count. -/
theorem handleEvents_eq_answered (readFile : FileReader) (w : Window) :
    handleEvents readFile w =
      ((fun _ ↦ !w.queue.any DesktopEvent.closes) <$> reactAll readFile (answered w.queue))
        { w with queue := [] } := by
  rw [← reactAll_eq_answered]
  rfl

theorem closes_of_mem_answered {events : List DesktopEvent} (he : e ∈ answered events) :
    e.closes = false := by
  have hall : (answered events).all (fun e ↦ !e.closes) = true := List.all_takeWhile
  simpa using List.all_eq_true.1 hall e he

/-- The keypad follows the keyboard.  Where answering the events that wait does not fail, the window
closes if one of them closes it, and then those in front of the first such event count, or else all.
Each key is as the last one left it that tells something of it, and as it was before if there is
none; of the other events none changes a key.  What is behind the events that count makes no
difference but for whether the window closes. -/
theorem keys_follow_keyboard (readFile : FileReader) (w : Window) {opened : Bool}
    (h : (handleEvents readFile w).result = .ok opened) :
    let after := (handleEvents readFile w).state
    (opened = false ↔ ∃ e ∈ w.queue, e.closes = true) ∧
    (∀ k < keyCount, ∃ key, KeyboardKey.layout[k]? = some key ∧
      after.keypad.isDown k =
        ((answered w.queue).filterMap (·.tells? key)).getLast?.getD (w.keypad.isDown k)) ∧
    (∀ events, answered events = answered w.queue →
      events.any DesktopEvent.closes = w.queue.any DesktopEvent.closes →
      handleEvents readFile { w with queue := events } = handleEvents readFile w) ∧
    ∀ e : DesktopEvent, e.SparesKeys → ∀ v, (react readFile e v).state.keypad = v.keypad := by
  intro after
  have heq := handleEvents_eq_answered readFile w
  have hresult : ∃ b, (reactAll readFile (answered w.queue) { w with queue := [] }).result = .ok b ∧
      opened = !w.queue.any DesktopEvent.closes := by
    rw [heq, Action.result_map] at h
    cases hr : (reactAll readFile (answered w.queue) { w with queue := [] }).result with
    | error e =>
      rw [hr] at h
      cases h
    | ok b =>
      rw [hr] at h
      cases h
      exact ⟨b, rfl, rfl⟩
  obtain ⟨b, hr, rfl⟩ := hresult
  refine ⟨?_, fun k hk ↦ ?_, fun events hanswered hcloses ↦ ?_, fun e he v ↦ ?_⟩
  · rw [Bool.not_eq_false', List.any_eq_true]
  · obtain ⟨key, hkey⟩ : ∃ key, KeyboardKey.layout[k]? = some key :=
      ⟨_, List.getElem?_eq_getElem hk⟩
    have hkeys := isDown_reactAll hkey (fun e he ↦ closes_of_mem_answered he) hr
    refine ⟨key, hkey, ?_⟩
    change (handleEvents readFile w).state.keypad.isDown k = _
    rw [heq, Action.state_map]
    exact hkeys
  · rw [heq, handleEvents_eq_answered, hanswered, hcloses]
  · exact keypad_of_sparesKeys he readFile v

/-- Keys that are pressed twice, released by the loss of the focus and pressed again, around a
program that is inserted and a file that is not there, and a key behind the end. -/
theorem digits_follow_keyboard :
    let events : List DesktopEvent :=
      [.keyDown ⟨"w"⟩, .keyDown ⟨"v"⟩, .keyDown .reinsert, .focusLost, .fileDropped "none",
        .keyDown ⟨"w"⟩, .keyDown ⟨"x"⟩, .keyUp ⟨"x"⟩, .keyUp .escape, .keyDown ⟨"v"⟩]
    let w := (Window.new .bare 1 440 (.missing "")).1.post events
    (handleEvents (.ofTable []) w).result = .ok false ∧
      (handleEvents (.ofTable []) w).state.keypad.isDown 0x5 = true ∧
      (handleEvents (.ofTable []) w).state.keypad.isDown 0xF = false := by
  intro events w
  have h : (handleEvents (.ofTable []) w).result = .ok false := by decide +kernel
  obtain ⟨-, hkeys, -⟩ := keys_follow_keyboard (.ofTable []) w h
  obtain ⟨key, hkey, hdown⟩ := hkeys 0x5 (by decide)
  obtain ⟨key', hkey', hdown'⟩ := hkeys 0xF (by decide)
  cases hkey
  cases hkey'
  refine ⟨h, hdown.trans ?_, hdown'.trans ?_⟩
  · decide +kernel
  · decide +kernel

end Window
end ChipEight
