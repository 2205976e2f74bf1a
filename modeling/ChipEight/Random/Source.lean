import ChipEight.Random.Twister

/-!
# Sources of random bytes

A program asks for random bytes one at a time. They come from a seeded generator, or from a fixed
list that is read over and over.
-/

namespace ChipEight

/-- Where random bytes come from. -/
inductive Source where
  /-- A pseudo-random generator. -/
  | generator (state : Twister)
  /-- The bytes still to come in this round, and the whole list. -/
  | script (coming whole : Bytes)
deriving DecidableEq

namespace Source

/-- The generator with the given seed, or one that is seeded with words of the system's choice. -/
def ofSeed (seed : Option Int) (entropy : Array UInt32) : Source :=
  .generator (seed.elim (Twister.ofWords entropy) Twister.ofSeed)

/-- The source that repeats the given bytes. -/
def ofBytes (whole : Bytes) : Source := .script whole whole

/-- Draws a byte; a list of no bytes gives zeros. -/
def draw : Source → UInt8 × Source
  | .generator state =>
    let (b, state) := state.byte
    (b, .generator state)
  | .script (b :: coming) whole => (b, .script coming whole)
  | .script [] (b :: whole) => (b, .script whole (b :: whole))
  | .script [] [] => (0, .script [] [])

instance : Inhabited Source := ⟨ofBytes []⟩

end Source

end ChipEight
