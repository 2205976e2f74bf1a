import ChipEight.Binary.Binary64
import ChipEight.Error

/-!
# The beep

A square wave in signed samples of sixteen bits. Sample `t` is high where the phase
`2 * t * toneRate / sampleRate`, divided in double precision, has an odd whole part. The height of
the wave is computed in single precision.
-/

namespace ChipEight

namespace Tone

/-- Samples per second of the sound device. -/
def defaultSampleRate : Int := 44100

/-- The number of samples in a tenth of a second. -/
def beepLength : Nat := 4410

/-- The largest sample. -/
def fullScale : Rat := 32767

/-- The remainder of `x` in steps of `step`, which has the sign of `step`. -/
def floorMod (x step : Rat) : Rat := x - step * (x / step).floor

/-- Cut off to 64 bits in two's complement. -/
def wrap64 (n : Int) : Int := (Int64.ofInt n).toInt

/-- The phase of sample `t` in half periods, in double precision. -/
def phase (toneRate sampleRate : Int) (t : Nat) : Binary64 :=
  match Binary64.ofInt? (wrap64 (t * toneRate * 2)), Binary64.ofInt? sampleRate with
  | some (.finite x), some (.finite r) => .ofRat (x / r)
  | _, _ => .nan

/-- The wave is in the upper half of its period. -/
def isHigh (phase : Binary64) : Bool :=
  match phase with
  | .finite x => 1 ≤ floorMod x 2
  | _ => false

/-- A sample from a level: the level at full scale in single precision, without its fraction, in
sixteen bits. A level out of range gives silence. -/
def sample (level : Rat) : Int :=
  match Format.binary32.round? level with
  | none => 0
  | some level =>
    match Format.binary32.round? (level * fullScale) with
    | none => 0
    | some x =>
      let n := wholePart x
      if -0x80000000 ≤ n ∧ n < 0x80000000 then (Int16.ofInt n).toInt else 0

/-- The first `count` samples of a wave. -/
def samples (toneRate sampleRate : Int) (count : Nat) (volume : Rat) : List Int :=
  let high := sample volume
  let low := sample (-volume)
  (List.range count).map fun t ↦ if isHigh (phase toneRate sampleRate t) then high else low

/-- The number of samples that fill a duration. -/
def sampleCount (sampleRate : Int) (duration : Binary64) : Except Refusal Nat :=
  match Binary64.ofInt? sampleRate with
  | none => .error .integerTooLarge
  | some rate =>
    match rate * duration with
    | .finite x => .ok (wholePart x).toNat
    | .nan => .error .notANumber
    | .infinity | .negInfinity => .error .infinite

/-- A square wave of the given duration. A volume that is no number is silent. -/
def squareWave (toneRate sampleRate : Int) (duration volume : Binary64) :
    Except Refusal (List Int) :=
  (sampleCount sampleRate duration).map fun count ↦
    samples toneRate sampleRate count (volume.toRat?.getD 0)

/-- A tenth of a second of a tone at full volume. -/
def beep (toneRate : Int) : List Int := samples toneRate defaultSampleRate beepLength 1

end Tone

end ChipEight
