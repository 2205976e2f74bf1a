import ChipEight.Proofs.Answering
import ChipEight.Proofs.Loading

/-!
# The window keeps the last program

What is inserted into a window and what is dropped on it is accepted if it can be read and fits, so
that the programs that have been accepted follow from the commands and the files alone
(`Insertions`).  The window remembers the last of them, and an insertion that is refused leaves the
window as it is.  Therefore the program can be inserted again at any time.
-/

namespace ChipEight

open ChipEight.Action (Preserves)

/-- Answering an event fails: a file has been dropped whose path no system takes. -/
def DesktopEvent.fails (readFile : FileReader) : DesktopEvent → Bool
  | .fileDropped path =>
    match readFile path with
    | .error e => e.refusal?.isSome
    | .ok _ => false
  | _ => false

/-- Commands by which a session goes on. -/
inductive WindowCommand.Operates : WindowCommand → Prop
  | post (event : DesktopEvent) : Operates (.post event)
  | handleEvents : Operates .handleEvents
  | insert (rom : Bytes) : Operates (.insert rom)
  | insertFile (path : String) : Operates (.insertFile path)
  | updateSound : Operates .updateSound
  | paint : Operates .paint
  | step : Operates (.interpret .step)
  | tick (dt : Binary64) : Operates (.interpret (.tick dt))
  | consumeRedraw : Operates (.interpret .consumeRedraw)

/-- The programs that have been accepted, in their order, and the events that wait, as they follow
from commands and files. -/
structure Insertions where
  accepted : List Bytes
  waiting : List DesktopEvent

namespace Insertions

/-- The program that was accepted last; the empty one if there is none. -/
def last (s : Insertions) : Bytes := s.accepted.getLast?.getD []

/-- A program is accepted if it fits. -/
def offer (s : Insertions) (rom : Bytes) : Insertions :=
  if rom.length ≤ maxProgramSize then { s with accepted := s.accepted ++ [rom] } else s

/-- A file is accepted if it can be read and fits. -/
def offerFile (readFile : FileReader) (s : Insertions) (path : String) : Insertions :=
  match readFile path with
  | .ok contents => s.offer contents
  | .error _ => s

/-- An event offers the last program again, or a file, or nothing. -/
def answer (readFile : FileReader) (s : Insertions) : DesktopEvent → Insertions
  | .keyDown key => if key = .reinsert then s.offer s.last else s
  | .fileDropped path => s.offerFile readFile path
  | _ => s

/-- Events are answered up to the first one that closes the window or fails. -/
def answerAll (readFile : FileReader) : List DesktopEvent → Insertions → Insertions
  | [], s => s
  | e :: events, s =>
    if e.closes || e.fails readFile then s else answerAll readFile events (s.answer readFile e)

/-- What a command adds. -/
def enter (readFile : FileReader) (s : Insertions) : WindowCommand → Insertions
  | .post e => { s with waiting := s.waiting ++ [e] }
  | .handleEvents => answerAll readFile s.waiting { s with waiting := [] }
  | .insert rom => s.offer rom
  | .insertFile path => s.offerFile readFile path
  | _ => s

/-- What commands come to, each with the files that are there at its time. -/
def ofCommands (commands : List (FileReader × WindowCommand)) : Insertions :=
  commands.foldl (fun s c ↦ s.enter c.1 c.2) ⟨[], []⟩

/-- An event that closes the window or fails inserts nothing. -/
theorem answer_of_stops {readFile : FileReader} {e : DesktopEvent}
    (h : (e.closes || e.fails readFile) = true) (s : Insertions) : s.answer readFile e = s := by
  cases e with
  | keyDown key =>
    obtain rfl : key = .escape := by simpa [DesktopEvent.closes, DesktopEvent.fails] using h
    rfl
  | fileDropped path =>
    have hfails : (DesktopEvent.fileDropped path).fails readFile = true := h
    rw [DesktopEvent.fails] at hfails
    rw [Insertions.answer, Insertions.offerFile]
    cases hread : readFile path with
    | error e => rfl
    | ok contents =>
      rw [hread] at hfails
      cases hfails
  | _ => rfl

end Insertions

namespace Interpreter

theorem state_perform_load (program font : Bytes) (i : Interpreter) :
    (perform (.load program font) i).state = (load program font i).state := by
  rw [perform, Action.state_map]

/-- Behind a step no instruction is being carried out. -/
theorem idle_stepProcessor : Preserves (fun i ↦ i.machine.busy = false) stepProcessor := by
  intro i hi
  have hsteps := Processor.steps_step i.processor
  change (Processor.step i.processor).state.machine.busy = false
  generalize (Processor.step i.processor).state = q, (Processor.step i.processor).result = answer
    at hsteps
  cases hsteps with
  | halted _ => exact hi
  | stopped _ _ => rfl
  | passed _ _ _ _ => rfl
  | carriedOut _ _ _ _ hm => exact (congrArg View.busy hm).trans (Manual.busy_after _ _ _ _)

theorem idle_step : Preserves (fun i ↦ i.machine.busy = false) step :=
  (Preserves.gets _).bind fun _ ↦ idle_stepProcessor.ite (.pure _)

theorem idle_tick (dt : Binary64) : Preserves (fun i ↦ i.machine.busy = false) (tick dt) := by
  have hend (i : Interpreter) (hi : i.machine.busy = false) : i.endTurn.machine.busy = false :=
    invariant_endTurn (P := fun m ↦ m.busy = false) (fun _ hm ↦ hm) hi
  exact invariant_tick (invariant_advance (invariant_turn idle_stepProcessor hend) fun _ h ↦ h)

end Interpreter

namespace Window

variable {w : Window} {s : Insertions} {settings : Settings} {readFile : FileReader}
  {e : DesktopEvent}

/-- A window between instructions that is as the insertions have left it. -/
structure Holds (settings : Settings) (w : Window) (s : Insertions) : Prop where
  idle : w.interpreter.machine.busy = false
  hasSettings : w.interpreter.HasSettings settings
  rom_eq : w.rom = s.last
  queue_eq : w.queue = s.waiting
  fits : ∀ rom ∈ s.accepted, rom.length ≤ maxProgramSize

namespace Holds

/-- The last program fits: it has been accepted, or it is the empty one. -/
theorem rom_fits (h : w.Holds settings s) : w.rom.length ≤ maxProgramSize := by
  rw [h.rom_eq, Insertions.last]
  cases hlast : s.accepted.getLast? with
  | none => exact Nat.zero_le _
  | some rom => exact h.fits rom (List.mem_of_getLast? hlast)

/-- Changes of what has nothing to do with insertions. -/
theorem of_eq {w' : Window} (h : w.Holds settings s) (hrom : w'.rom = w.rom)
    (hqueue : w'.queue = w.queue) (hidle : w'.interpreter.machine.busy = false)
    (hsettings : w'.interpreter.HasSettings settings) : w'.Holds settings s where
  idle := hidle
  hasSettings := hsettings
  rom_eq := hrom.trans h.rom_eq
  queue_eq := hqueue.trans h.queue_eq
  fits := h.fits

theorem withKeypad (h : w.Holds settings s) (k : Keypad) : (w.withKeypad k).Holds settings s :=
  h.of_eq rfl rfl h.idle (Interpreter.independent_hasSettings.withMachine _ _ h.hasSettings)

theorem insert (h : w.Holds settings s) (rom : Bytes) :
    (insert rom w).state.Holds settings (s.offer rom) := by
  by_cases hfits : rom.length ≤ maxProgramSize
  · rw [insert_of_fits h.idle hfits, Insertions.offer, if_pos hfits]
    constructor
    case idle =>
      rw [← Interpreter.state_perform_load]
      exact (Interpreter.justLoaded_load h.idle length_builtInFont hfits).busy
    case hasSettings =>
      rw [← Interpreter.state_perform_load]
      exact Interpreter.independent_hasSettings.perform _ _ h.hasSettings
    case rom_eq =>
      rw [Insertions.last, List.getLast?_concat]
      rfl
    case queue_eq => exact h.queue_eq
    case fits => exact List.forall_mem_append.2 ⟨h.fits, List.forall_mem_singleton.2 hfits⟩
  · rw [insert_of_too_large h.idle (Nat.lt_of_not_le hfits), Insertions.offer, if_neg hfits]
    exact h

theorem insertFile (h : w.Holds settings s) (readFile : FileReader) (path : String) :
    (insertFile readFile path w).state.Holds settings (s.offerFile readFile path) := by
  rw [Insertions.offerFile]
  cases hread : readFile path with
  | error e =>
    rw [(insertFile_of_unreadable hread).1]
    exact h
  | ok contents =>
    have hinsert := h.insert contents
    by_cases hfits : contents.length ≤ maxProgramSize
    · rw [(insertFile_of_fits h.idle hread hfits).1]
      exact hinsert
    · have hlarge := Nat.lt_of_not_le hfits
      rw [insert_of_too_large h.idle hlarge] at hinsert
      rw [(insertFile_of_too_large h.idle hread hlarge).1]
      exact hinsert

end Holds

/-! ## Events -/

/-- A file can be inserted or it is left alone, and only a path that no system takes fails. -/
theorem result_insertFile (h : w.Holds settings s) (path : String) :
    (∃ inserted, (insertFile readFile path w).result = .ok inserted) ↔
      (DesktopEvent.fileDropped path).fails readFile = false := by
  rw [DesktopEvent.fails]
  cases hread : readFile path with
  | error e =>
    unfold insertFile
    rw [hread]
    dsimp only
    cases e.refusal? with
    | none => exact ⟨fun _ ↦ rfl, fun _ ↦ ⟨false, rfl⟩⟩
    | some r =>
      constructor
      · rintro ⟨_, h⟩
        cases h
      · intro h
        cases h
  | ok contents =>
    refine ⟨fun _ ↦ rfl, fun _ ↦ ?_⟩
    by_cases hfits : contents.length ≤ maxProgramSize
    · exact ⟨_, (insertFile_of_fits h.idle hread hfits).2⟩
    · exact ⟨_, (insertFile_of_too_large h.idle hread (Nat.lt_of_not_le hfits)).2⟩

/-- The last program can be inserted again. -/
theorem react_reinsert (h : w.Holds settings s) :
    react readFile (.keyDown .reinsert) w =
      ⟨{ w with interpreter := (Interpreter.load w.rom builtInFont w.interpreter).state },
        .ok true, [.programLoaded w.rom.length, .reset]⟩ := by
  have hinsert := insert_of_fits h.idle h.rom_fits
  rw [react, if_neg (by decide), if_pos rfl, Action.gets_bind,
    Action.bind_of_ok (congrArg Outcome.result hinsert), hinsert]
  rfl

theorem Holds.react (h : w.Holds settings s) (readFile : FileReader) (e : DesktopEvent) :
    (react readFile e w).state.Holds settings (s.answer readFile e) := by
  cases e with
  | quit => exact h
  | keyDown key =>
    rw [Insertions.answer]
    by_cases hreinsert : key = .reinsert
    · have hinsert := h.insert w.rom
      rw [insert_of_fits h.idle h.rom_fits] at hinsert
      rw [if_pos hreinsert, hreinsert, react_reinsert h, ← h.rom_eq]
      exact hinsert
    · rw [if_neg hreinsert, Window.react, if_neg hreinsert]
      split
      · exact h
      · rw [setKey_then_stay]
        exact h.withKeypad _
  | keyUp key =>
    rw [Window.react]
    split
    · exact h
    · rw [setKey_then_stay]
      exact h.withKeypad _
  | focusLost => exact h.withKeypad _
  | focusGained => exact h
  | fileDropped path =>
    have hfile := h.insertFile readFile path
    cases hr : (Window.insertFile readFile path w).result with
    | error e =>
      rw [Window.react, Action.bind_of_error hr]
      exact hfile
    | ok b =>
      rw [Window.react, Action.bind_of_ok hr]
      exact hfile

/-- The window stays open after an event, unless it closes it or fails. -/
theorem result_react (h : w.Holds settings s) (readFile : FileReader) (e : DesktopEvent) :
    (react readFile e w).result = .ok true ↔ (e.closes || e.fails readFile) = false := by
  cases hc : e.closes with
  | true =>
    rw [react_of_closes hc, Bool.true_or]
    exact ⟨fun h ↦ (nomatch h), fun h ↦ (nomatch h)⟩
  | false =>
    rw [Bool.false_or]
    cases e with
    | quit => cases hc
    | keyDown key =>
      refine ⟨fun _ ↦ rfl, fun _ ↦ ?_⟩
      by_cases hreinsert : key = .reinsert
      · rw [hreinsert, react_reinsert h]
      · rw [react, if_neg (of_decide_eq_false hc), if_neg hreinsert, setKey_then_stay]
    | keyUp key =>
      refine ⟨fun _ ↦ rfl, fun _ ↦ ?_⟩
      rw [react, if_neg (of_decide_eq_false hc), setKey_then_stay]
    | focusLost => exact ⟨fun _ ↦ rfl, fun _ ↦ rfl⟩
    | focusGained => exact ⟨fun _ ↦ rfl, fun _ ↦ rfl⟩
    | fileDropped path =>
      rw [← result_insertFile h, react]
      cases hr : (insertFile readFile path w).result with
      | error e =>
        rw [Action.bind_of_error hr]
        constructor
        · intro h
          cases h
        · rintro ⟨_, h⟩
          cases h
      | ok b =>
        rw [Action.bind_of_ok hr]
        exact ⟨fun _ ↦ ⟨b, rfl⟩, fun _ ↦ rfl⟩

/-- Behind an event that closes the window or fails nothing is answered. -/
theorem state_reactAll_cons (h : w.Holds settings s) (readFile : FileReader) (e : DesktopEvent)
    (events : List DesktopEvent) :
    (reactAll readFile (e :: events) w).state =
      if e.closes || e.fails readFile then (react readFile e w).state
      else (reactAll readFile events (react readFile e w).state).state := by
  rw [reactAll]
  cases hstop : e.closes || e.fails readFile with
  | false =>
    have hr := (result_react h readFile e).2 hstop
    rw [Action.bind_of_ok hr, if_pos rfl]
    rfl
  | true =>
    cases hr : (react readFile e w).result with
    | error _ =>
      rw [Action.bind_of_error hr]
      rfl
    | ok opened =>
      cases opened with
      | true =>
        rw [(result_react h readFile e).1 hr] at hstop
        cases hstop
      | false =>
        rw [Action.bind_of_ok hr]
        rfl

theorem Holds.reactAll (h : w.Holds settings s) (readFile : FileReader)
    (events : List DesktopEvent) :
    (reactAll readFile events w).state.Holds settings (Insertions.answerAll readFile events s) := by
  induction events generalizing w s with
  | nil => exact h
  | cons e events ih =>
    have hfirst := h.react readFile e
    rw [state_reactAll_cons h, Insertions.answerAll]
    split
    · next hstop => rwa [Insertions.answer_of_stops hstop] at hfirst
    · exact ih hfirst

/-! ## Runs -/

theorem Holds.perform (h : w.Holds settings s) (readFile : FileReader) {c : WindowCommand}
    (hc : c.Operates) : (perform readFile c w).state.Holds settings (s.enter readFile c) := by
  cases hc with
  | post event =>
    exact ⟨h.idle, h.hasSettings, h.rom_eq, congrArg (· ++ [event]) h.queue_eq, h.fits⟩
  | handleEvents =>
    have hqueue : Holds settings { w with queue := [] } { s with waiting := [] } :=
      ⟨h.idle, h.hasSettings, h.rom_eq, rfl, h.fits⟩
    have hall := hqueue.reactAll readFile w.queue
    rw [h.queue_eq] at hall
    rw [Window.perform, Action.state_map, handleEvents, Action.gets_bind, h.queue_eq]
    exact hall
  | insert rom =>
    rw [Window.perform, Action.state_map]
    exact h.insert rom
  | insertFile path =>
    rw [Window.perform, Action.state_map]
    exact h.insertFile readFile path
  | updateSound => exact h.of_eq rfl rfl h.idle h.hasSettings
  | paint => exact h.of_eq rfl rfl h.idle h.hasSettings
  | step =>
    refine h.of_eq rfl rfl ?_ (Interpreter.independent_hasSettings.perform .step _ h.hasSettings)
    change (Interpreter.perform .step w.interpreter).state.machine.busy = false
    rw [Interpreter.perform, Action.state_map]
    exact Interpreter.idle_step _ h.idle
  | tick dt =>
    refine h.of_eq rfl rfl ?_
      (Interpreter.independent_hasSettings.perform (.tick dt) _ h.hasSettings)
    change (Interpreter.perform (.tick dt) w.interpreter).state.machine.busy = false
    rw [Interpreter.perform, Action.state_map]
    exact Interpreter.idle_tick dt _ h.idle
  | consumeRedraw =>
    exact h.of_eq rfl rfl h.idle
      (Interpreter.independent_hasSettings.withMachine _ _ h.hasSettings)

theorem Holds.performAll (h : w.Holds settings s) {commands : List (FileReader × WindowCommand)}
    (hc : ∀ c ∈ commands, c.2.Operates) :
    (performAll commands w).Holds settings (commands.foldl (fun s c ↦ s.enter c.1 c.2) s) := by
  induction commands generalizing w s with
  | nil => exact h
  | cons c commands ih =>
    obtain ⟨hhead, htail⟩ := List.forall_mem_cons.1 hc
    exact ih (h.perform c.1 hhead) htail

/-- What a run of commands reaches, with the programs that have been accepted by then: the window
behind the last command, and in the middle of a list of events that it answers next. -/
inductive Reaches (w : Window) (commands : List (FileReader × WindowCommand)) :
    Window → List Bytes → Prop
  | behind : Reaches w commands (performAll commands w) (Insertions.ofCommands commands).accepted
  | within (readFile : FileReader) (events : List DesktopEvent) :
      Reaches w commands (reactAll readFile events { performAll commands w with queue := [] }).state
        (Insertions.answerAll readFile events
          { Insertions.ofCommands commands with waiting := [] }).accepted

theorem Holds.new {i : Interpreter} (idle : i.machine.busy = false) (h : i.HasSettings settings)
    (scale toneRate : Int) (device : SoundDevice) :
    (new i scale toneRate device).1.Holds settings ⟨[], []⟩ := by
  cases device with
  | present => exact ⟨idle, h, rfl, rfl, by simp⟩
  | missing reason => exact ⟨idle, h, rfl, rfl, by simp⟩

/-- What is reached is as the programs that have been accepted have left it. -/
theorem Holds.of_reaches (h : w.Holds settings ⟨[], []⟩)
    {commands : List (FileReader × WindowCommand)} (hc : ∀ c ∈ commands, c.2.Operates) {v : Window}
    {accepted : List Bytes} (hv : w.Reaches commands v accepted) :
    ∃ waiting, v.Holds settings ⟨accepted, waiting⟩ := by
  have hall : (Window.performAll commands w).Holds settings (.ofCommands commands) :=
    h.performAll hc
  cases hv with
  | behind => exact ⟨_, hall⟩
  | within readFile events =>
    have hqueue : Holds settings { Window.performAll commands w with queue := [] }
        { Insertions.ofCommands commands with waiting := [] } :=
      ⟨hall.idle, hall.hasSettings, hall.rom_eq, rfl, hall.fits⟩
    exact ⟨_, hqueue.reactAll readFile events⟩

/-! ## Insertions are all or nothing -/

theorem result_insert_iff (h : w.Holds settings s) (rom : Bytes) :
    (insert rom w).result = .ok () ↔ rom.length ≤ maxProgramSize := by
  by_cases hfits : rom.length ≤ maxProgramSize
  · rw [insert_of_fits h.idle hfits]
    exact iff_of_true rfl hfits
  · rw [insert_of_too_large h.idle (Nat.lt_of_not_le hfits)]
    exact iff_of_false (fun h ↦ nomatch h) hfits

theorem result_insertFile_iff (h : w.Holds settings s) (readFile : FileReader) (path : String) :
    (insertFile readFile path w).result = .ok true ↔
      ∃ contents, readFile path = .ok contents ∧ contents.length ≤ maxProgramSize := by
  cases hread : readFile path with
  | error e =>
    refine iff_of_false (insertFile_of_unreadable hread).2 ?_
    rintro ⟨_, h, -⟩
    cases h
  | ok contents =>
    by_cases hfits : contents.length ≤ maxProgramSize
    · exact iff_of_true (insertFile_of_fits h.idle hread hfits).2 ⟨contents, rfl, hfits⟩
    · have hrefused := (insertFile_of_too_large h.idle hread (Nat.lt_of_not_le hfits)).2
      refine iff_of_false (fun h ↦ ?_) ?_
      · rw [hrefused] at h
        cases h
      · rintro ⟨_, h, hle⟩
        cases h
        exact hfits hle

/-- A file that is not inserted leaves the window as it is. -/
theorem state_insertFile_of_refused (h : w.Holds settings s) (readFile : FileReader) (path : String)
    (hr : (insertFile readFile path w).result ≠ .ok true) :
    (insertFile readFile path w).state = w := by
  rw [ne_eq, result_insertFile_iff h] at hr
  cases hread : readFile path with
  | error e => exact (insertFile_of_unreadable hread).1
  | ok contents =>
    have hlarge : maxProgramSize < contents.length :=
      Nat.lt_of_not_le fun hle ↦ hr ⟨contents, hread, hle⟩
    exact (insertFile_of_too_large h.idle hread hlarge).1

/-- A file that is dropped does what inserting it does. -/
theorem state_fileDropped (readFile : FileReader) (path : String) (w : Window) :
    (react readFile (.fileDropped path) w).state = (insertFile readFile path w).state := by
  cases hr : (insertFile readFile path w).result with
  | error e => rw [react, Action.bind_of_error hr]
  | ok b =>
    rw [react, Action.bind_of_ok hr]
    rfl

/-- The window keeps the last program.  Whatever a new window is asked to do, whether or not it
succeeds, also in the middle of the events that it answers, it remembers the last program that was
accepted, or the empty one if there was none, and every program that was accepted fits.  An
insertion that is refused changes nothing.  The program can be inserted again at any time, which
leaves the interpreter as a new one with the same keys down and the same random bytes to come is
after a load of the program. -/
theorem keeps_last_program {source : Source} {i : Interpreter}
    (hi : Interpreter.new settings source = .ok i) (past : List Command)
    (idle : (Interpreter.performAll past i).machine.busy = false) (scale toneRate : Int)
    (device : SoundDevice) {commands : List (FileReader × WindowCommand)}
    (hc : ∀ c ∈ commands, c.2.Operates) {v : Window} {accepted : List Bytes}
    (hv : (new (Interpreter.performAll past i) scale toneRate device).1.Reaches commands v
      accepted) :
    v.rom = accepted.getLast?.getD [] ∧
    v.rom.length ≤ 3584 ∧
    (∀ rom ∈ accepted, rom.length ≤ 3584) ∧
    (∀ rom, ((insert rom v).result = .ok () ↔ rom.length ≤ 3584) ∧
      ((insert rom v).result = .ok () → (insert rom v).state.rom = rom) ∧
      ((insert rom v).result ≠ .ok () → (insert rom v).state = v)) ∧
    (∀ readFile path,
      ((insertFile readFile path v).result = .ok true ↔
        ∃ contents, readFile path = .ok contents ∧ contents.length ≤ 3584) ∧
      (react readFile (.fileDropped path) v).state = (insertFile readFile path v).state ∧
      ((insertFile readFile path v).result ≠ .ok true → (insertFile readFile path v).state = v)) ∧
    ∀ readFile,
      let o := react readFile (.keyDown .reinsert) v
      o.result = .ok true ∧ o.state.rom = v.rom ∧
      Interpreter.JustLoaded v.rom builtInFont v.interpreter o.state.interpreter ∧
      ∀ fresh, Interpreter.new settings v.interpreter.processor.source = .ok fresh →
        o.state.interpreter =
          (Interpreter.perform (.load v.rom builtInFont)
            (fresh.withKeypad v.interpreter.machine.keypad)).state.withLastKeys
              v.interpreter.processor.keys := by
  obtain ⟨waiting, h⟩ := (Holds.new idle (Interpreter.hasSettings_performAll hi past) scale toneRate
    device).of_reaches hc hv
  refine ⟨h.rom_eq, h.rom_fits, h.fits, fun rom ↦ ⟨result_insert_iff h rom, ?_, ?_⟩,
    fun readFile path ↦ ⟨result_insertFile_iff h readFile path, state_fileDropped readFile path v,
      state_insertFile_of_refused h readFile path⟩, ?_⟩
  · intro haccepted
    rw [insert_of_fits h.idle ((result_insert_iff h rom).1 haccepted)]
  · intro hrefused
    rw [ne_eq, result_insert_iff h] at hrefused
    rw [insert_of_too_large h.idle (Nat.lt_of_not_le hrefused)]
  · intro readFile o
    have ho : o = ⟨_, .ok true, _⟩ := react_reinsert h
    rw [ho, ← Interpreter.state_perform_load]
    exact ⟨rfl, rfl, Interpreter.justLoaded_load h.idle length_builtInFont h.rom_fits,
      fun fresh hfresh ↦ Interpreter.state_load_eq_fresh h.hasSettings hfresh h.idle
        length_builtInFont h.rom_fits⟩

/-- A program that has stopped at a fault is kept while a file that is too large and one that is not
there are dropped, and inserted again. -/
theorem keeps_stopped_program :
    let empty : FileReader := .ofTable []
    let readFile : FileReader := .ofTable [("/roms/large", .ok (List.replicate 3585 0))]
    let commands : List (FileReader × WindowCommand) :=
      [(empty, .insert [0xFF, 0xFF]), (empty, .interpret .step),
        (readFile, .post (.fileDropped "/roms/large")), (readFile, .post (.fileDropped "/none")),
        (readFile, .handleEvents)]
    let i : Interpreter := { Interpreter.bare with loaded := false }
    let v := performAll commands (Window.new i 1 440 (.missing "")).1
    let o := react empty (.keyDown .reinsert) v
    v.rom = [0xFF, 0xFF] ∧ v.interpreter.processor.isHalted = true ∧ o.result = .ok true ∧
      o.state.interpreter.processor.isHalted = false := by
  intro empty readFile commands i v o
  have hi : Interpreter.new {} default = .ok i := rfl
  have hc : ∀ c ∈ commands, c.2.Operates := by
    simp only [commands, List.forall_mem_cons]
    exact ⟨.insert _, .step, .post _, .post _, .handleEvents, fun c hc ↦ nomatch hc⟩
  have hkept := keeps_last_program hi [] rfl 1 440 (.missing "") hc .behind
  obtain ⟨hrom, -, -, -, -, hreinsert⟩ := hkept
  obtain ⟨hresult, -, hloaded, -⟩ := hreinsert empty
  have haccepted : (Insertions.ofCommands commands).accepted = [[0xFF, 0xFF]] := by decide +kernel
  rw [haccepted] at hrom
  exact ⟨hrom, by decide +kernel, hresult, hloaded.running⟩

end Window

end ChipEight
