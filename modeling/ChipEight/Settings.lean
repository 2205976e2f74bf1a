import ChipEight.Error
import ChipEight.Text.Uppercase

/-!
# Settings

What a user can choose. `Settings.check` refuses a clock that does not run and puts the rest into
its normal form.
-/

namespace ChipEight

/-- What a user can choose about an emulator and its window. -/
structure Settings where
  /-- Instructions per second. -/
  clockRate : Int := defaultClockRate
  /-- Timer ticks per second. -/
  timerRate : Int := defaultTimerRate
  /-- Unknown words are skipped. -/
  debug : Bool := false
  /-- Storing and loading registers moves the index register. -/
  legacyStore : Bool := false
  /-- The seed of the random bytes. -/
  seed : Option Int := none
  /-- The side of a pixel in the window. -/
  scale : Int := 15
  /-- The frequency of the beep. -/
  toneRate : Int := 440
  /-- Frames per second. -/
  frameRate : Int := 60
  /-- The name of the least important level that is logged. -/
  logLevel : String := "WARNING"
deriving DecidableEq, Repr

namespace Settings

/-- The same settings with a scale of one or more and the level in upper case, unless the clock does
not run. -/
def check (s : Settings) : Except Refusal Settings :=
  if s.clockRate ≤ 0 then .error (.clockNotPositive s.clockRate)
  else .ok { s with scale := max 1 s.scale, logLevel := Text.uppercase s.logLevel }

end Settings

end ChipEight
