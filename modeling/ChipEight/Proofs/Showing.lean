import ChipEight.Desktop.Session
import ChipEight.Proofs.Answering
import ChipEight.Proofs.Halting
import ChipEight.Proofs.Painting
import ChipEight.Proofs.Redraw

/-!
# What the window shows

A window is painted only after the screen has been drawn on.  Still it never lags behind at the end
of a frame: unless the machine has put down that the screen has been drawn on, the last picture
shows the screen as it is.  Everything that happens in a frame keeps to this.
-/

namespace ChipEight

open ChipEight.Action (Preserves Ensures)

namespace Window

variable {w : Window} {scale : Nat}

/-- The window has been painted, and it shows the given screen. -/
def Pictures (w : Window) (screen : Screen) : Prop := 0 < w.paints ∧ w.surface = screen

/-- Unless the screen has been drawn on since, the window shows it. -/
structure Current (scale : Nat) (w : Window) : Prop where
  scale_eq : w.scale = scale
  drawnOr : w.interpreter.DrawnOr w.Pictures

/-- The window shows the screen. -/
structure Shows (scale : Nat) (w : Window) : Prop where
  scale_eq : w.scale = scale
  redraw : w.interpreter.machine.redraw = false
  pictures : w.Pictures w.interpreter.machine.screen

theorem Shows.current (h : w.Shows scale) : w.Current scale where
  scale_eq := h.scale_eq
  drawnOr _ := h.pictures

/-! ## What keeps a window current -/

theorem current_onInterpreter {α : Type} {x : Action Interpreter α}
    (hx : ∀ P, Preserves (Interpreter.DrawnOr P) x) :
    Preserves (Current scale) (onInterpreter x) := by
  intro w hw
  constructor
  · exact hw.scale_eq
  · exact hx w.Pictures w.interpreter hw.drawnOr

theorem current_post (events : List DesktopEvent) :
    Preserves (Current scale) (.modify (post events)) :=
  fun _ hw ↦ ⟨hw.scale_eq, hw.drawnOr⟩

theorem current_insert (rom : Bytes) : Preserves (Current scale) (insert rom) := by
  refine (current_onInterpreter fun P ↦ Interpreter.drawnOr_load rom builtInFont).bind fun _ ↦ ?_
  exact fun w hw ↦ ⟨hw.scale_eq, hw.drawnOr⟩

/-- What happens to a window keeps it current. -/
theorem lasting_current : Lasting (Current scale) where
  insert := current_insert
  withKeypad _ _ hw := ⟨hw.scale_eq, hw.drawnOr⟩
  withQueue _ _ hw := ⟨hw.scale_eq, hw.drawnOr⟩

theorem current_updateSound : Preserves (Current scale) (.modify updateSound) :=
  fun _ hw ↦ ⟨hw.scale_eq, hw.drawnOr⟩

/-- A window into which a program has been inserted is current, although nothing has been painted.
-/
theorem current_of_insert (rom : Bytes) :
    Ensures (fun w ↦ w.scale = scale) (insert rom) fun _ ↦ Current scale := by
  refine Ensures.bind (Q := fun _ w ↦ w.scale = scale ∧ w.interpreter.machine.redraw = true) ?_ ?_
  · exact fun w hw _ hload ↦ ⟨hw, Interpreter.redraw_load hload⟩
  · rintro _ w ⟨hw, hredraw⟩ _ -
    exact ⟨hw, .of_redraw hredraw⟩

/-! ## What is seen -/

/-- After the answer the machine has nothing put down, and if it had nothing before, the window
shows the screen. -/
structure Asked (scale : Nat) (drawn : Bool) (w : Window) : Prop where
  scale_eq : w.scale = scale
  redraw : w.interpreter.machine.redraw = false
  pictures : drawn = false → w.Pictures w.interpreter.machine.screen

theorem asked_consumeRedraw :
    Ensures (Current scale) (onInterpreter Interpreter.consumeRedraw) (Asked scale) := by
  rintro w hw _ ⟨⟩
  constructor
  · exact hw.scale_eq
  · rfl
  · exact hw.drawnOr

/-- A window that is painted where the machine says so shows the screen. -/
theorem shows_paint : Ensures (Asked scale true) (.modify paint) fun _ ↦ Shows scale := by
  rintro w hw _ -
  constructor
  · exact hw.scale_eq
  · exact hw.redraw
  · exact ⟨Nat.succ_pos _, rfl⟩

end Window

namespace Session

open Window (Current Shows)

variable {scale : Nat}

/-- A frame begins with a window that need not be up to date and, if it is completed, ends with one
that shows the screen. -/
theorem shows_frame (readFile : FileReader) (events : List DesktopEvent) (dt : Binary64) :
    Ensures (Current scale) (frame readFile events dt) fun opened w ↦
      opened = true → w.Shows scale := by
  refine (Window.current_post events).bind_ensures fun _ ↦ ?_
  refine (Window.lasting_current.handleEvents readFile).bind_ensures fun opened ↦ ?_
  cases opened with
  | false => exact .pure fun w _ h ↦ nomatch h
  | true =>
    have htick : Preserves (Current scale) (Window.onInterpreter (Interpreter.tick dt)) :=
      Window.current_onInterpreter fun P ↦ Interpreter.drawnOr_tick dt
    refine htick.bind_ensures fun _ ↦ ?_
    refine Window.current_updateSound.bind_ensures fun _ ↦ ?_
    refine Window.asked_consumeRedraw.bind fun drawn ↦ ?_
    cases drawn with
    | false => exact .pure fun w hw _ ↦ ⟨hw.scale_eq, hw.redraw, hw.pictures rfl⟩
    | true => exact Window.shows_paint.bind fun _ ↦ .pure fun w hw _ ↦ hw

/-- What the first frame of a script leads to. -/
theorem frames_cons (readFile : FileReader) (frameRate : Int) (w : Window) (log : List Note)
    (dt : Binary64) (f : Frame) (rest : List Frame) :
    frames readFile frameRate w log dt (f :: rest) =
      let o := frame readFile f.events dt w
      match o.result with
      | .error e => ⟨[], .failed e, o.state, log ++ o.log⟩
      | .ok false => ⟨[], .closed, o.state, log ++ o.log⟩
      | .ok true =>
        let report : FrameReport := ⟨o.state, frameRate, log ++ o.log⟩
        if f.interrupt then ⟨[report], .interrupted, o.state, []⟩
        else match seconds f.duration with
          | .error e => ⟨[report], .failed (.refusal e), o.state, []⟩
          | .ok dt =>
            let later := frames readFile frameRate o.state [] dt rest
            { later with frames := report :: later.frames } :=
  -- In brackets, or else it would also be tried with reducible definitions alone, which takes long.
  (rfl)

/-- What holds of a window and no frames, and is handed on from the frames that follow a completed
one to all of them, holds of the frames of a script. -/
theorem frames_induction (readFile : FileReader) (frameRate : Int)
    {P : Window → List FrameReport → Prop}
    (hnil : ∀ w, P w [])
    (hcons : ∀ w events dt (report : FrameReport) later,
      (frame readFile events dt w).result = .ok true →
      (frame readFile events dt w).state = report.window →
      P report.window later → P w (report :: later))
    (w : Window) (log : List Note) (dt : Binary64) (script : List Frame) :
    P w (frames readFile frameRate w log dt script).frames := by
  induction script generalizing w log dt with
  | nil => exact hnil w
  | cons f script ih =>
    have hframe := hcons w f.events dt
    rw [frames_cons]
    generalize frame readFile f.events dt w = o at hframe ⊢
    rcases o with ⟨v, e | opened, notes⟩
    · exact hnil w
    · cases opened with
      | false => exact hnil w
      | true =>
        have hreport : ∀ later, P v later → P w (⟨v, frameRate, log ++ notes⟩ :: later) :=
          fun later ↦ hframe ⟨v, frameRate, log ++ notes⟩ later rfl rfl
        dsimp only
        split
        · exact hreport [] (hnil v)
        · cases seconds f.duration with
          | error e => exact hreport [] (hnil v)
          | ok dt => exact hreport _ (ih v [] dt)

/-- At the end of every frame of a script the window shows the screen. -/
theorem shows_frames (readFile : FileReader) (frameRate : Int) {w : Window} (hw : w.Current scale)
    (log : List Note) (dt : Binary64) (script : List Frame) :
    ∀ r ∈ (frames readFile frameRate w log dt script).frames, r.window.Shows scale := by
  refine frames_induction (P := fun w reports ↦ w.Current scale →
    ∀ r ∈ reports, r.window.Shows scale) readFile frameRate ?_ ?_ w log dt script hw
  · exact fun _ _ r hr ↦ nomatch hr
  · intro w events dt report later hopened hstate ih hw
    have hshows : report.window.Shows scale := by
      rw [← hstate]
      exact shows_frame readFile events dt w hw true hopened rfl
    exact List.forall_mem_cons.2 ⟨hshows, ih hshows.current⟩

/-- A window shows nothing when it is opened, but the program that is inserted marks the screen as
drawn on. -/
theorem shows_run (readFile : FileReader) (i : Interpreter) (s : Settings) (rom : Bytes)
    (device : SoundDevice) (script : List Frame) :
    ∀ r ∈ (run readFile i s rom device script).frames,
      r.window.Shows (max 1 s.scale).toNat := by
  have hnew : (Window.new i s.scale s.toneRate device).1.scale = (max 1 s.scale).toNat := by
    cases device <;> rfl
  unfold run
  dsimp only
  cases hinsert : (Window.insert rom (Window.new i s.scale s.toneRate device).1).result with
  | error e => exact fun r hr ↦ nomatch hr
  | ok u => exact shows_frames _ _ (Window.current_of_insert rom _ hnew u hinsert) _ _ _

/-- The window never lags behind.  At the end of every frame it has been painted, and it shows the
screen as it is: the last painting, whatever was there before it, made a point white if the pixel
over it is lit and black if not, so that the pixels that are lit, and these alone, give as many
white points as the square of the scale. -/
theorem window_shows_screen (readFile : FileReader) (i : Interpreter) (s : Settings) (rom : Bytes)
    (device : SoundDevice) (script : List Frame) :
    ∀ r ∈ (run readFile i s rom device script).frames,
      let w := r.window
      let screen := w.interpreter.machine.screen
      w.scale = (max 1 s.scale).toNat ∧ 0 < w.paints ∧ w.surface = screen ∧
      (∀ px < w.size.1, ∀ py < w.size.2,
        w.isWhite px py = screen.isLit (px / w.scale) (py / w.scale) ∧
        ∀ before, screen.painted w.scale before px py = w.isWhite px py) ∧
      (∀ x < screenWidth, ∀ y < screenHeight,
        (w.whitePoints.filter fun point ↦ w.cellOver point = (y, x)).card =
          if screen.isLit x y then w.scale * w.scale else 0) ∧
      w.whitePoints.card = w.whiteCount := by
  intro r hr w screen
  obtain ⟨hscale, -, hpaints, hsurface⟩ := shows_run readFile i s rom device script r hr
  have hpos : 0 < w.scale := by
    rw [hscale]
    omega
  refine ⟨hscale, hpaints, hsurface, fun px hpx py hpy ↦ ⟨?_, fun before ↦ ?_⟩,
    fun x _ y _ ↦ ?_, Window.card_whitePoints hpos⟩
  · rw [Window.isWhite, hsurface]
  · have hx : px < screenWidth * w.scale := hpx
    have hy : py < screenHeight * w.scale := hpy
    rw [Window.isWhite, hsurface, Screen.painted_eq_isLit screen before hx hy]
  · rw [Window.card_whitePoints_over hpos, hsurface]

/-- A digit is drawn in the second frame, each pixel as a square of nine points. -/
theorem digit_is_shown :
    let glyph : Bytes := [0xA0, 0x50, 0xD0, 0x15, 0x12, 0x04]
    let frames := (run (.ofTable []) .bare { scale := 3 } glyph (.missing "")
      [⟨[], 4, false⟩, ⟨[.focusLost], 4, false⟩]).frames
    ∃ r ∈ frames, r.window.paints = 2 ∧
      r.window.isWhite 11 2 = true ∧ r.window.isWhite 12 2 = false := by
  intro glyph frames
  have hframes : frames.map (fun r ↦
      (r.window.paints, r.window.interpreter.machine.screen.isLit 3 0,
        r.window.interpreter.machine.screen.isLit 4 0)) =
      [(1, false, false), (2, true, false)] := by decide +kernel
  have hsecond : (2, true, false) ∈ [(1, false, false), (2, true, false)] := by decide
  rw [← hframes, List.mem_map] at hsecond
  obtain ⟨r, hr, hscreen⟩ := hsecond
  obtain ⟨hscale, -, -, hwhite, -, -⟩ := window_shows_screen _ _ _ _ _ _ r hr
  simp only [Prod.mk.injEq] at hscreen
  obtain ⟨hpaints, hlit, hdark⟩ := hscreen
  have hscale : r.window.scale = 3 := hscale
  have hwidth : 12 < r.window.size.1 := by rw [Window.size, hscale]; decide
  have hheight : 2 < r.window.size.2 := by rw [Window.size, hscale]; decide
  refine ⟨r, hr, hpaints, ?_, ?_⟩
  · rw [(hwhite 11 (by omega) 2 hheight).1, hscale]
    exact hlit
  · rw [(hwhite 12 hwidth 2 hheight).1, hscale]
    exact hdark

end Session

end ChipEight
