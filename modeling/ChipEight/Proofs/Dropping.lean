import ChipEight.Proofs.LastProgram

/-!
# Files that are dropped

A file that is dropped on the window is inserted if the system reads it and it fits.  If not, one
line in the log says why, and the running program goes on.  This is so for all paths but those that
no system takes, which are refused before anything is looked up and make the window fail.
-/

namespace ChipEight

open ChipEight.Action (Preserves)

/-- No system takes the path: it holds a null character or one that there are no bytes for. -/
def FileReader.Rejects (readFile : FileReader) (path : String) : Prop :=
  ∃ e r, readFile path = .error e ∧ e.refusal? = some r

namespace FileReader

variable {readFile : FileReader} {path : String}

theorem not_rejects_of_ok {contents : Bytes} (hread : readFile path = .ok contents) :
    ¬ readFile.Rejects path := by
  rintro ⟨_, _, hrejected, -⟩
  cases hread.symm.trans hrejected

theorem rejects_iff_of_error {e : FileError} (hread : readFile path = .error e) :
    readFile.Rejects path ↔ ∃ r, e.refusal? = some r := by
  simp [Rejects, hread]

end FileReader

theorem DesktopEvent.fails_iff {readFile : FileReader} {e : DesktopEvent} :
    e.fails readFile = true ↔ ∃ path, e = .fileDropped path ∧ readFile.Rejects path := by
  cases e with
  | fileDropped path =>
    simp only [fileDropped.injEq, exists_eq_left', fails]
    cases hread : readFile path with
    | error e => rw [FileReader.rejects_iff_of_error hread, Option.isSome_iff_exists]
    | ok contents => simpa using FileReader.not_rejects_of_ok hread
  | _ => simp [fails]

namespace Window

variable {w v : Window} {readFile : FileReader} {path : String}

/-! ## One file -/

/-- What becomes of a file that is to be inserted into a window. -/
inductive Inserts (readFile : FileReader) (path : String) (w : Window) : Outcome Window Bool → Prop
  | inserted {contents : Bytes} (hread : readFile path = .ok contents)
      (fits : contents.length ≤ 3584) (loaded : (insert contents w).result = .ok ()) :
      Inserts readFile path w
        ⟨(insert contents w).state, .ok true, (insert contents w).log ++ [.inserted path]⟩
  | unreadable {e : FileError} (hread : readFile path = .error e) (hsystem : e.refusal? = none) :
      Inserts readFile path w ⟨w, .ok false, [.notInserted path (e.text path)]⟩
  | tooLarge {contents : Bytes} (hread : readFile path = .ok contents)
      (large : 3584 < contents.length) :
      Inserts readFile path w
        ⟨w, .ok false, [.notInserted path (Cause.programTooLarge contents.length 3584).text]⟩
  | rejected {e : FileError} {r : Refusal} (hread : readFile path = .error e)
      (hpath : e.refusal? = some r) : Inserts readFile path w ⟨w, .error (.refusal r), []⟩

theorem inserts_insertFile (idle : w.interpreter.machine.busy = false) (readFile : FileReader)
    (path : String) : Inserts readFile path w (insertFile readFile path w) := by
  unfold insertFile
  cases hread : readFile path with
  | error e =>
    dsimp only
    cases hpath : e.refusal? with
    | some r => exact .rejected hread hpath
    | none => exact .unreadable hread hpath
  | ok contents =>
    by_cases fits : contents.length ≤ maxProgramSize
    · have hinserted := Inserts.inserted (w := w) hread fits (by rw [insert_of_fits idle fits])
      simp only [insert_of_fits idle fits] at hinserted ⊢
      exact hinserted
    · have large : maxProgramSize < contents.length := Nat.lt_of_not_le fits
      simp only [insert_of_too_large idle large]
      exact .tooLarge hread large

/-- A file is inserted or left alone, unless no system takes its path. -/
theorem Inserts.result_iff {o : Outcome Window Bool} (h : Inserts readFile path w o) :
    (∃ inserted, o.result = .ok inserted) ↔ ¬ readFile.Rejects path := by
  cases h with
  | inserted hread _ _ => exact iff_of_true ⟨true, rfl⟩ (FileReader.not_rejects_of_ok hread)
  | unreadable hread hsystem =>
    rw [FileReader.rejects_iff_of_error hread, hsystem]
    exact iff_of_true ⟨false, rfl⟩ nofun
  | tooLarge hread _ => exact iff_of_true ⟨false, rfl⟩ (FileReader.not_rejects_of_ok hread)
  | rejected hread hpath =>
    rw [FileReader.rejects_iff_of_error hread, hpath]
    exact iff_of_false nofun (not_not.2 ⟨_, rfl⟩)

/-- What the system does not read is noted and leaves the window as it is. -/
theorem Inserts.of_unreadable {o : Outcome Window Bool} {e : FileError}
    (h : Inserts readFile path w o) (hread : readFile path = .error e)
    (hsystem : e.refusal? = none) : o = ⟨w, .ok false, [.notInserted path (e.text path)]⟩ := by
  cases h with
  | inserted hread' _ _ => cases hread.symm.trans hread'
  | unreadable hread' _ =>
    cases hread.symm.trans hread'
    rfl
  | tooLarge hread' _ => cases hread.symm.trans hread'
  | rejected hread' hpath =>
    cases hread.symm.trans hread'
    cases hsystem.symm.trans hpath

/-- What the system reads is inserted if it fits. -/
theorem Inserts.of_fits {o : Outcome Window Bool} {contents : Bytes}
    (h : Inserts readFile path w o) (hread : readFile path = .ok contents)
    (fits : contents.length ≤ 3584) :
    o.state = (insert contents w).state ∧ o.result = .ok true := by
  cases h with
  | inserted hread' _ _ =>
    cases hread.symm.trans hread'
    exact ⟨rfl, rfl⟩
  | unreadable hread' _ => cases hread.symm.trans hread'
  | tooLarge hread' large =>
    cases hread.symm.trans hread'
    exact absurd large (Nat.not_lt.2 fits)
  | rejected hread' _ => cases hread.symm.trans hread'

/-! ## The program that is remembered -/

variable {s : Insertions} {settings : Settings}

/-- The program that a window remembers fits, since it has been loaded. -/
theorem lasting_fits : Lasting fun w ↦ w.rom.length ≤ maxProgramSize where
  insert rom w hw := by
    by_cases hfits : rom.length ≤ maxProgramSize
    · -- whether it is loaded or not, the window remembers one that fits
      cases hr : (onInterpreter (Interpreter.load rom builtInFont) w).result with
      | error e =>
        rw [insert, Action.bind_of_error hr]
        exact hw
      | ok u =>
        rw [insert, Action.bind_of_ok hr]
        exact hfits
    · obtain ⟨e, hm⟩ := Machine.load_of_unfit (.inr (Nat.lt_of_not_le hfits))
        w.interpreter.machine
      have hx : (onInterpreter (Interpreter.load rom builtInFont) w).result = .error e :=
        congrArg Outcome.result (Interpreter.load_of_error hm)
      rw [insert, Action.bind_of_error hx]
      exact hw
  withKeypad _ _ hw := hw
  withQueue _ _ hw := hw

theorem fits_perform (readFile : FileReader) (c : WindowCommand) :
    Preserves (fun w ↦ w.rom.length ≤ maxProgramSize) (perform readFile c) := by
  cases c with
  | post event => exact fun w hw ↦ hw
  | handleEvents => exact (lasting_fits.handleEvents readFile).map _
  | insert rom => exact (lasting_fits.insert rom).map _
  | insertFile path => exact (preserves_insertFile lasting_fits.insert readFile path).map _
  | updateSound => exact fun w hw ↦ hw
  | paint => exact fun w hw ↦ hw
  | interpret command => exact fun w hw ↦ hw

/-- Whatever is done to a window that fits, it fits. -/
theorem fits_performAll {commands : List (FileReader × WindowCommand)}
    (hw : w.rom.length ≤ maxProgramSize) :
    (performAll commands w).rom.length ≤ maxProgramSize := by
  induction commands generalizing w with
  | nil => exact hw
  | cons c commands ih => exact ih (fits_perform c.1 c.2 w hw)

theorem fits_of_reaches {i : Interpreter} {scale toneRate : Int} {device : SoundDevice}
    {commands : List (FileReader × WindowCommand)} {accepted : List Bytes}
    (hv : (new i scale toneRate device).1.Reaches commands v accepted) :
    v.rom.length ≤ maxProgramSize := by
  have hnew : (new i scale toneRate device).1.rom.length ≤ maxProgramSize := by
    cases device <;> exact Nat.zero_le _
  cases hv with
  | behind => exact fits_performAll hnew
  | within readFile events =>
    exact lasting_fits.reactAll readFile events _ (fits_performAll hnew)

/-- Between instructions a window whose program fits is as its last insertion has left it. -/
theorem exists_holds (idle : w.interpreter.machine.busy = false)
    (hfits : w.rom.length ≤ maxProgramSize) :
    ∃ settings, w.Holds settings ⟨[w.rom], w.queue⟩ := by
  obtain ⟨settings, hsettings⟩ := w.interpreter.exists_hasSettings
  exact ⟨settings, idle, hsettings, rfl, rfl, List.forall_mem_singleton.2 hfits⟩

/-! ## Many events -/

/-- Answering events fails exactly if it comes to one that fails: all before it have been answered,
and the window is still open. -/
theorem result_reactAll_eq_error_iff (h : w.Holds settings s) (readFile : FileReader)
    (events : List DesktopEvent) :
    (∃ error, (reactAll readFile events w).result = .error error) ↔
      ∃ e ∈ answered events, e.fails readFile = true := by
  induction events generalizing w s with
  | nil =>
    refine iff_of_false ?_ ?_
    · rintro ⟨error, herror⟩
      cases herror
    · simp [answered]
  | cons e events ih =>
    cases hc : e.closes with
    | true =>
      rw [reactAll_cons_of_closes hc, answered, List.takeWhile_cons_of_neg (by simp [hc])]
      refine iff_of_false ?_ ?_
      · rintro ⟨error, herror⟩
        cases herror
      · simp
    | false =>
      have hresult := result_react h readFile e
      rw [hc, Bool.false_or] at hresult
      rw [answered, List.takeWhile_cons_of_pos (by simp [hc]), ← answered, reactAll]
      simp only [List.mem_cons, exists_eq_or_imp]
      cases hr : (react readFile e w).result with
      | error error =>
        rw [Action.bind_of_error hr]
        rw [hr] at hresult
        exact iff_of_true ⟨error, rfl⟩ (.inl (by simpa using hresult))
      | ok opened =>
        obtain rfl := result_react_of_not_closes hc hr
        rw [hresult.1 hr, Action.bind_of_ok hr, if_pos rfl]
        simpa using ih (h.react readFile e)

theorem result_handleEvents_eq_error_iff (idle : w.interpreter.machine.busy = false)
    (hfits : w.rom.length ≤ maxProgramSize) (readFile : FileReader) :
    (∃ error, (handleEvents readFile w).result = .error error) ↔
      ∃ path, .fileDropped path ∈ answered w.queue ∧ readFile.Rejects path := by
  obtain ⟨settings, hw⟩ : ∃ settings, Holds settings { w with queue := [] } ⟨[w.rom], []⟩ :=
    exists_holds idle hfits
  have hall : (handleEvents readFile w).result =
      (reactAll readFile w.queue { w with queue := [] }).result := rfl
  rw [hall, result_reactAll_eq_error_iff hw]
  simp only [DesktopEvent.fails_iff]
  constructor
  · rintro ⟨_, hmem, path, rfl, hrejects⟩
    exact ⟨path, hmem, hrejects⟩
  · rintro ⟨path, hmem, hrejects⟩
    exact ⟨_, hmem, path, rfl, hrejects⟩

/-- A file that is dropped does not bring the window down, unless no system takes its path.
Whatever a window has been asked to do, and whatever comes of each path that is read, as long as no
instruction is being carried out a file is inserted if it can be read and has at most 3584 bytes; if
not, one error is noted and the window stays as it is.  To drop the file does the same.  Inserting a
file and answering events fail exactly for paths that no system takes. -/
theorem dropped_files_are_inserted_or_refused {i : Interpreter} {scale toneRate : Int}
    {device : SoundDevice} {commands : List (FileReader × WindowCommand)} {accepted : List Bytes}
    (hv : (new i scale toneRate device).1.Reaches commands v accepted)
    (idle : v.interpreter.machine.busy = false) (readFile : FileReader) :
    (∀ path, let o := insertFile readFile path v
      Inserts readFile path v o ∧
      ((∃ inserted, o.result = .ok inserted) ↔ ¬ readFile.Rejects path) ∧
      react readFile (.fileDropped path) v = ⟨o.state, o.result.map fun _ ↦ true, o.log⟩) ∧
    ((∃ error, (handleEvents readFile v).result = .error error) ↔
      ∃ path, .fileDropped path ∈ answered v.queue ∧ readFile.Rejects path) := by
  refine ⟨fun path ↦ ?_, result_handleEvents_eq_error_iff idle (fits_of_reaches hv) readFile⟩
  have hinserts := inserts_insertFile idle readFile path
  have hdropped :
      react readFile (.fileDropped path) = (fun _ ↦ true) <$> insertFile readFile path := by
    rw [map_eq_pure_bind, react]
  refine ⟨hinserts, hinserts.result_iff, ?_⟩
  rw [hdropped, Action.map_apply]

/-- Some files: a directory, a path through a file, one that may not be read, one that is too large,
and a program. -/
def someFiles : FileReader := .ofTable
  [("/roms", .error (.notOpened 21 "Is a directory")),
    ("/note/game", .error (.notOpened 20 "Not a directory")),
    ("/secret", .error (.notOpened 13 "Permission denied")),
    ("/large", .ok (List.replicate 3585 0)),
    ("/game", .ok [0x12, 0x00])]

/-- A window whose program has stopped at once, and on which some files have been dropped. -/
def stopped : Window :=
  performAll
    ([.insert [0xFF, 0xFF], .interpret .step, .post (.fileDropped "/roms"),
      .post (.fileDropped "/note/game"), .post (.fileDropped "/secret"),
      .post (.fileDropped "/large"), .post (.fileDropped "/none")].map (someFiles, ·))
    (new { Interpreter.bare with loaded := false } 1 440 (.missing "")).1

/-- A program that has stopped survives what cannot be read and what is too large, and a program is
inserted all the same. -/
theorem stopped_window_survives_drops :
    insertFile someFiles "/roms" stopped =
        ⟨stopped, .ok false, [.notInserted "/roms" "[Errno 21] Is a directory: '/roms'"]⟩ ∧
      ((insertFile someFiles "/game" stopped).state = (insert [0x12, 0x00] stopped).state ∧
        (insertFile someFiles "/game" stopped).result = .ok true) ∧
      ¬ ∃ error, (handleEvents someFiles stopped).result = .error error := by
  have idle : stopped.interpreter.machine.busy = false := by decide +kernel
  have htaken : ∀ e ∈ answered stopped.queue, e.fails someFiles = false := by decide +kernel
  have hroms : someFiles "/roms" = .error (.notOpened 21 "Is a directory") := by decide +kernel
  have htext : FileError.text "/roms" (.notOpened 21 "Is a directory") =
      "[Errno 21] Is a directory: '/roms'" := by
    decide +kernel
  have hgame : someFiles "/game" = .ok [0x12, 0x00] := by decide +kernel
  obtain ⟨hfile, hevents⟩ := dropped_files_are_inserted_or_refused (v := stopped) .behind idle
    someFiles
  obtain ⟨hkept, -⟩ := hfile "/roms"
  obtain ⟨hinserted, -⟩ := hfile "/game"
  refine ⟨?_, hinserted.of_fits hgame (by decide), ?_⟩
  · rw [hkept.of_unreadable hroms rfl, htext]
  · rintro ⟨error, herror⟩
    obtain ⟨path, hdropped, hrejects⟩ := hevents.1 ⟨error, herror⟩
    have hfails := DesktopEvent.fails_iff.2 ⟨path, rfl, hrejects⟩
    rw [htaken _ hdropped] at hfails
    cases hfails

/-- Not every path is survived: a null character makes the window fail. -/
theorem null_in_path_brings_window_down :
    let readFile : FileReader := .ofTable []
    let w := (new { Interpreter.bare with loaded := false } 1 440 (.missing "")).1
    (¬ ∀ path, ∃ inserted, (insertFile readFile path w).result = .ok inserted) ∧
      ¬ ∀ path, ∃ opened,
        (handleEvents readFile (post [.fileDropped path] w)).result = .ok opened := by
  intro readFile w
  have hfile : (insertFile readFile "a\x00b" w).result = .error (.refusal .nullInPath) := by
    decide +kernel
  have hevents : (handleEvents readFile (post [.fileDropped "a\x00b"] w)).result =
      .error (.refusal .nullInPath) := by
    decide +kernel
  constructor
  · intro h
    obtain ⟨_, hinserted⟩ := h "a\x00b"
    cases hfile.symm.trans hinserted
  · intro h
    obtain ⟨_, hopened⟩ := h "a\x00b"
    cases hevents.symm.trans hopened

end Window

end ChipEight
