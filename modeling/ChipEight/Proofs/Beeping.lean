import ChipEight.Proofs.Showing

/-!
# The beep follows the sound timer

Whenever a window is asked to update its sound it looks whether the sound timer runs, and tells the
sound device only of a change.  So whatever happens in between, the device is told to play and to
stop in turns, and the last thing that it is told agrees with the last look at the timer.
-/

namespace ChipEight

open ChipEight.Action (Preserves Ensures)

namespace SoundCall

/-- The call that turns the beep on or off. -/
def switch : Bool → SoundCall
  | true => .play
  | false => .stop

/-- The call at a change, if it is one. -/
def edge (before now : Bool) : List SoundCall := if now = before then [] else [switch now]

/-- The calls at the changes in a list. -/
def edges (before : Bool) : List Bool → List SoundCall
  | [] => []
  | now :: later => edge before now ++ edges now later

/-- Calls in turns, of which the first one is to play.  The last one is to play if the beep is on,
and else there is none or it is to stop. -/
structure Alternate (calls : List SoundCall) (beeping : Bool) : Prop where
  first : ∀ c ∈ calls.head?, c = .play
  in_turns : calls.IsChain (· ≠ ·)
  last : calls.getLast? = some .play ↔ beeping = true

theorem switch_injective : Function.Injective switch := by
  intro a b
  revert a b
  decide

/-- How the device is told of a change. -/
theorem ite_eq_edge (before now : Bool) :
    (if now && !before then [play] else if !now && before then [stop] else []) =
      edge before now := by
  cases before <;> cases now <;> rfl

/-- The first change is away from what was before. -/
theorem head?_edges (before : Bool) (later : List Bool) :
    ∀ c ∈ (edges before later).head?, c = switch (!before) := by
  induction later generalizing before with
  | nil => exact fun c hc ↦ nomatch hc
  | cons now later ih =>
    rw [edges, edge]
    split
    · next h =>
      subst h
      exact ih now
    · next h =>
      rintro c ⟨⟩
      rw [Bool.eq_not.2 h]

theorem isChain_edges (before : Bool) (later : List Bool) :
    (edges before later).IsChain (· ≠ ·) := by
  induction later generalizing before with
  | nil => exact .nil
  | cons now later ih =>
    rw [edges, edge]
    split
    · exact ih now
    · refine List.isChain_append.2 ⟨.singleton _, ih now, ?_⟩
      rintro c ⟨⟩ d hd hcd
      have hswitch := hcd.trans (head?_edges now later d hd)
      simpa using switch_injective hswitch

/-- The last change is to what was last. -/
theorem getLast?_edges (before : Bool) (later : List Bool) :
    (edges before later).getLast?.getD (switch before) = switch (later.getLastD before) := by
  induction later generalizing before with
  | nil => rfl
  | cons now later ih =>
    rw [edges, edge, List.getLastD_cons, ← ih]
    split
    · next h =>
      subst h
      rfl
    · rw [List.getLast?_append, List.getLast?_singleton]
      cases (edges now later).getLast? <;> rfl

/-- The changes of something that is off at first. -/
theorem alternate_edges (later : List Bool) :
    Alternate (edges false later) (later.getLastD false) where
  first := head?_edges false later
  in_turns := isChain_edges false later
  last := by
    rw [← switch_injective.eq_iff, ← getLast?_edges false later]
    cases (edges false later).getLast? with
    | none => simp [switch]
    | some c => simp [switch]

end SoundCall

namespace Window

variable {w : Window} {readFile : FileReader} {c : WindowCommand}

/-- What a window has to do with sound: the samples of the beep, whether it is on, and what the
sound device has been told. -/
def audio (w : Window) : Option (List Int) × Bool × List SoundCall := (w.sound, w.beeping, w.calls)

/-- Whether the sound timer runs. -/
def soundActive (w : Window) : Bool := w.interpreter.machine.soundActive

/-- The audio of a window that has looked at the sound timer a number of times since. -/
def audioAfter (looks : List Bool) (w : Window) : Option (List Int) × Bool × List SoundCall :=
  (w.sound, looks.getLastD w.beeping,
    w.calls ++ if w.sound.isSome then SoundCall.edges w.beeping looks else [])

theorem audioAfter_nil (w : Window) : w.audioAfter [] = w.audio := by
  simp [audioAfter, audio, SoundCall.edges]

/-- Looks one after the other. -/
theorem audioAfter_cons {v : Window} {look : Bool} (h : v.audio = w.audioAfter [look])
    (looks : List Bool) : v.audioAfter looks = w.audioAfter (look :: looks) := by
  simp only [audio, audioAfter, Prod.mk.injEq] at h
  obtain ⟨hsound, hbeeping, hcalls⟩ := h
  have hnow : [look].getLastD w.beeping = look := rfl
  rw [audioAfter, hsound, hbeeping, hcalls, hnow, audioAfter, List.getLastD_cons]
  cases w.sound.isSome with
  | false => simp
  | true => simp [SoundCall.edges]

/-- The sound is updated by one look at the timer. -/
theorem audio_updateSound (w : Window) : w.updateSound.audio = w.audioAfter [w.soundActive] := by
  simp only [audio, audioAfter, updateSound, soundActive, SoundCall.ite_eq_edge, SoundCall.edges,
    List.getLastD_cons, List.getLastD_nil, List.append_nil]
  cases w.sound with
  | none => rfl
  | some samples => rfl

theorem audioAfter_congr {v : Window} (h : v.audio = w.audio) (looks : List Bool) :
    v.audioAfter looks = w.audioAfter looks := by
  simp only [audio, Prod.mk.injEq] at h
  obtain ⟨hsound, hbeeping, hcalls⟩ := h
  rw [audioAfter, hsound, hbeeping, hcalls, audioAfter]

/-- The beep of a window that has looked at the sound timer a number of times since it opened. -/
structure Beeps (device : SoundDevice) (looks : List Bool) (w : Window) : Prop where
  /-- It is on if the timer ran at the last look. -/
  beeping_eq : w.beeping = looks.getLastD false
  calls_eq : device = .present → w.calls = SoundCall.edges false looks
  alternate : device = .present → SoundCall.Alternate w.calls w.beeping
  calls_eq_nil : ∀ reason, device = .missing reason → w.calls = []

theorem Beeps.of_audio {i : Interpreter} {scale toneRate : Int} {device : SoundDevice}
    {looks : List Bool} (h : w.audio = (new i scale toneRate device).1.audioAfter looks) :
    w.Beeps device looks := by
  simp only [audio, audioAfter, Prod.mk.injEq] at h
  obtain ⟨-, hbeeping, hcalls⟩ := h
  cases device with
  | present =>
    have hbeeping : w.beeping = looks.getLastD false := hbeeping
    have hcalls : w.calls = SoundCall.edges false looks := hcalls
    refine ⟨hbeeping, fun _ ↦ hcalls, fun _ ↦ ?_, fun _ hmissing ↦ ?_⟩
    · rw [hcalls, hbeeping]
      exact SoundCall.alternate_edges looks
    · cases hmissing
  | missing reason =>
    refine ⟨hbeeping, fun hpresent ↦ ?_, fun hpresent ↦ ?_, fun _ _ ↦ hcalls⟩
    · cases hpresent
    · cases hpresent

/-! ## What is done to a window -/

/-- Nothing but an update of the sound has to do with sound. -/
theorem lasting_audio (a : Option (List Int) × Bool × List SoundCall) :
    Lasting fun w ↦ w.audio = a where
  insert _ := Preserves.bind (fun _ hw ↦ hw) fun _ _ hw ↦ hw
  withKeypad _ _ hw := hw
  withQueue _ _ hw := hw

theorem audio_perform (hc : c ≠ .updateSound) (w : Window) :
    (perform readFile c w).state.audio = w.audio := by
  have h := lasting_audio w.audio
  cases c with
  | post event => rfl
  | handleEvents => exact ((h.handleEvents readFile).map _) w rfl
  | insert rom => exact ((h.insert rom).map _) w rfl
  | insertFile path => exact ((preserves_insertFile h.insert readFile path).map _) w rfl
  | updateSound => exact (hc rfl).elim
  | paint => rfl
  | interpret command => rfl

/-- Whether the sound timer runs, each time that a window is asked to update its sound. -/
def timerLooks : List (FileReader × WindowCommand) → Window → List Bool
  | [], _ => []
  | (readFile, c) :: commands, w =>
    (if c = .updateSound then [w.soundActive] else []) ++
      timerLooks commands (perform readFile c w).state

/-- A run leaves the audio as the looks at the timer make it, whatever else happens. -/
theorem audio_performAll (commands : List (FileReader × WindowCommand)) (w : Window) :
    (performAll commands w).audio = w.audioAfter (timerLooks commands w) := by
  induction commands generalizing w with
  | nil => exact (audioAfter_nil w).symm
  | cons command commands ih =>
    obtain ⟨readFile, c⟩ := command
    have hrest : (performAll ((readFile, c) :: commands) w).audio =
        (perform readFile c w).state.audioAfter
          (timerLooks commands (perform readFile c w).state) := ih _
    rw [hrest, timerLooks]
    split
    · next hc =>
      subst hc
      exact audioAfter_cons (audio_updateSound w) _
    · next hc => exact audioAfter_congr (audio_perform hc w) _

end Window

namespace Session

variable {readFile : FileReader}

/-! ## Frames -/

/-- A frame that is completed has looked at the timer once, and the timer has not changed since. -/
theorem audio_frame (w : Window) (events : List DesktopEvent) (dt : Binary64) :
    Ensures (fun v ↦ v.audio = w.audio) (frame readFile events dt) fun opened v ↦
      opened = true → v.audio = w.audioAfter [v.soundActive] := by
  have hupdate : Ensures (fun v ↦ v.audio = w.audio) (.modify Window.updateSound) fun _ v ↦
      v.audio = w.audioAfter [v.soundActive] := by
    rintro v hv _ -
    exact (Window.audio_updateSound v).trans (Window.audioAfter_congr hv _)
  have hpost : Preserves (fun v ↦ v.audio = w.audio) (.modify (Window.post events)) :=
    fun _ hv ↦ hv
  have htick : Preserves (fun v ↦ v.audio = w.audio)
      (Window.onInterpreter (Interpreter.tick dt)) := fun _ hv ↦ hv
  refine hpost.bind_ensures fun _ ↦ ?_
  refine ((Window.lasting_audio w.audio).handleEvents readFile).bind_ensures fun opened ↦ ?_
  cases opened with
  | false => exact .pure fun v _ h ↦ nomatch h
  | true =>
    refine htick.bind_ensures fun _ ↦ hupdate.bind fun _ ↦ ?_
    have hdraw : Preserves (fun v ↦ v.audio = w.audioAfter [v.soundActive])
        (Window.onInterpreter Interpreter.consumeRedraw) := fun _ hv ↦ hv
    refine hdraw.bind_ensures fun drawn ↦ ?_
    cases drawn with
    | false => exact .pure fun v hv _ ↦ hv
    | true =>
      have hpaint : Preserves (fun v ↦ v.audio = w.audioAfter [v.soundActive])
          (.modify Window.paint) := fun _ hv ↦ hv
      exact hpaint.bind_ensures fun _ ↦ .pure fun v hv _ ↦ hv

/-- What the sound timers at the ends of the frames so far make of the audio. -/
theorem audio_frames (frameRate : Int) (w : Window) (log : List Note) (dt : Binary64)
    (script : List Frame) :
    ∀ past r later, (frames readFile frameRate w log dt script).frames = past ++ r :: later →
      r.window.audio = w.audioAfter ((past ++ [r]).map (·.window.soundActive)) := by
  refine frames_induction (P := fun w reports ↦ ∀ past r later, reports = past ++ r :: later →
    r.window.audio = w.audioAfter ((past ++ [r]).map (·.window.soundActive)))
    readFile frameRate ?_ ?_ w log dt script
  · intro w past r later h
    cases past <;> cases h
  · intro w events dt report reports hopened hstate ih past r later h
    have hreport : report.window.audio = w.audioAfter [report.window.soundActive] := by
      rw [← hstate]
      exact audio_frame w events dt w rfl true hopened rfl
    cases past with
    | nil =>
      cases h
      exact hreport
    | cons first past =>
      cases h
      rw [ih past r later rfl]
      exact Window.audioAfter_cons hreport _

theorem audio_run (i : Interpreter) (s : Settings) (rom : Bytes) (device : SoundDevice)
    (script : List Frame) :
    ∀ past r later, (run readFile i s rom device script).frames = past ++ r :: later →
      r.window.audio = (Window.new i s.scale s.toneRate device).1.audioAfter
        ((past ++ [r]).map (·.window.soundActive)) := by
  have hinsert := (Window.lasting_audio _).insert rom
    (Window.new i s.scale s.toneRate device).1 rfl
  unfold run
  dsimp only
  split
  · intro past r later h
    cases past <;> cases h
  · intro past r later h
    rw [audio_frames _ _ _ _ _ past r later h]
    exact Window.audioAfter_congr hinsert _

/-- The beep follows the sound timer.  Whatever is done to a window, be it to its interpreter or to
the timer itself, the beep is on if the timer ran when the window last looked at it, and off before
the first look.  A sound device is told of every change from look to look and of nothing else, to
play and to stop in turns, and without one nothing is told.  A window that runs looks once in each
frame, so that at the end of every completed frame the beep is on if and only if the timer runs,
also when events have loaded a program in between. -/
theorem beep_follows_sound_timer (i : Interpreter) (device : SoundDevice) :
    (∀ (scale toneRate : Int) (commands : List (FileReader × WindowCommand)),
      let w := (Window.new i scale toneRate device).1
      (Window.performAll commands w).Beeps device (Window.timerLooks commands w)) ∧
    ∀ (readFile : FileReader) (s : Settings) (rom : Bytes) (script : List Frame)
      (past : List FrameReport) (r : FrameReport) (later : List FrameReport),
      (run readFile i s rom device script).frames = past ++ r :: later →
      r.window.Beeps device ((past ++ [r]).map (·.window.soundActive)) ∧
        r.window.beeping = r.window.soundActive := by
  constructor
  · intro scale toneRate commands w
    exact .of_audio (Window.audio_performAll commands w)
  · intro readFile s rom script past r later h
    have hbeeps : r.window.Beeps device ((past ++ [r]).map (·.window.soundActive)) :=
      .of_audio (audio_run i s rom device script past r later h)
    refine ⟨hbeeps, hbeeps.beeping_eq.trans ?_⟩
    simp

/-- The program is inserted again while it beeps. -/
theorem beep_stops_at_insertion :
    let tone : Bytes := [0x60, 0x05, 0xF0, 0x18, 0x12, 0x04]
    let script : List Frame :=
      [⟨[], 10, false⟩, ⟨[], 0, false⟩, ⟨[.keyDown .reinsert], 0, false⟩]
    ∃ r, (run (.ofTable []) .bare {} tone .present script).frames.getLast? = some r ∧
      r.window.calls = [.play, .stop] ∧ r.window.beeping = false := by
  intro tone script
  have hactive : (run (.ofTable []) .bare {} tone .present script).frames.map
      (·.window.soundActive) = [false, true, false] := by decide +kernel
  have hlength := congrArg List.length hactive
  rw [List.length_map] at hlength
  obtain ⟨a, b, c, hframes⟩ := List.length_eq_three.1 hlength
  rw [hframes] at hactive
  obtain ⟨-, hsession⟩ := beep_follows_sound_timer .bare .present
  obtain ⟨hbeeps, -⟩ := hsession (.ofTable []) {} tone script [a, b] c [] hframes
  have hlooks : ([a, b] ++ [c]).map (·.window.soundActive) = [false, true, false] := hactive
  rw [hlooks] at hbeeps
  exact ⟨c, by rw [hframes]; rfl, hbeeps.calls_eq rfl, hbeeps.beeping_eq⟩

end Session

end ChipEight
