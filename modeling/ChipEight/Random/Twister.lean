import ChipEight.Layout

/-!
# The Mersenne Twister

The generator of period `2 ^ 19937 - 1` on 624 words of 32 bits. `Twister.ofWords` seeds it with a
list of words, `Twister.next` draws a word.
-/

namespace ChipEight

/-- The number of words of the generator's state. -/
abbrev twisterSize : Nat := 624

/-- The state of the generator: its words, and how many of them have been drawn. -/
structure Twister where
  words : Vector UInt32 twisterSize
  drawn : Nat
deriving DecidableEq

namespace Twister

/-- The state that belongs to one seed word: each word is mixed from the one before it. -/
def spread (seed : UInt32) : Vector UInt32 twisterSize :=
  let rec fill (words : Vector UInt32 twisterSize) (previous : UInt32) (i : Nat) :
      Nat → Vector UInt32 twisterSize
    | 0 => words
    | left + 1 =>
      let word := (1812433253 : UInt32) * (previous ^^^ (previous >>> 30)) + UInt32.ofNat i
      fill (words.setIfInBounds i word) word (i + 1) left
  fill (Vector.replicate twisterSize seed) seed 1 (twisterSize - 1)

/-- The state together with the place and the last word that seeding has reached. -/
structure Seeding where
  words : Vector UInt32 twisterSize
  place : Nat
  previous : UInt32

namespace Seeding

/-- Writes `word` at the place and moves on; behind the last place the word also goes to the front
and the next place is the second. -/
def write (s : Seeding) (word : UInt32) : Seeding :=
  let words := s.words.setIfInBounds s.place word
  if s.place + 1 < twisterSize then ⟨words, s.place + 1, word⟩
  else ⟨words.set 0 word, 1, word⟩

/-- The word at the place, mixed with the word before it. -/
def mixed (s : Seeding) (factor : UInt32) : UInt32 :=
  (s.words[s.place]?.getD 0) ^^^ ((s.previous ^^^ (s.previous >>> 30)) * factor)

/-- Adds the seed words and their numbers, going round the key as long as rounds are left. -/
def absorb (key : Array UInt32) (s : Seeding) (j : Nat) : Nat → Seeding
  | 0 => s
  | left + 1 =>
    let word := s.mixed 1664525 + key[j]?.getD 0 + UInt32.ofNat j
    absorb key (s.write word) (if j + 1 < key.size then j + 1 else 0) left

/-- Mixes every word with its place. -/
def settle (s : Seeding) : Nat → Seeding
  | 0 => s
  | left + 1 => settle (s.write (s.mixed 1566083941 - UInt32.ofNat s.place)) left

end Seeding

/-- The generator seeded with a list of words. Its first word has the leading bit set, so the state
is never zero. -/
def ofWords (key : Array UInt32) : Twister :=
  let start := spread 19650218
  let absorbed := Seeding.absorb key ⟨start, 1, start[0]⟩ 0 (max twisterSize key.size)
  let settled := absorbed.settle (twisterSize - 1)
  ⟨settled.words.set 0 0x80000000, twisterSize⟩

/-- The words of `n`, least significant first; at least one. -/
def wordsOf (n : Nat) : Array UInt32 :=
  let rec go (words : Array UInt32) (n : Nat) : Nat → Array UInt32
    | 0 => words
    | left + 1 =>
      if n < 2 ^ 32 then words.push (UInt32.ofNat n)
      else go (words.push (UInt32.ofNat n)) (n / 2 ^ 32) left
  go #[] n (n.log2 / 32 + 1)

/-- The generator seeded with an integer, of which the sign does not count. -/
def ofSeed (seed : Int) : Twister := ofWords (wordsOf seed.natAbs)

/-- The new word at place `i`, from its neighbour and the word 397 places on. -/
def twist (words : Vector UInt32 twisterSize) (i : Nat) : UInt32 :=
  let wordAt (k : Nat) : UInt32 := words[k % twisterSize]?.getD 0
  let joined := (wordAt i &&& 0x80000000) ||| (wordAt (i + 1) &&& 0x7FFFFFFF)
  let shifted := wordAt (i + 397) ^^^ (joined >>> 1)
  if joined &&& 1 = 0 then shifted else shifted ^^^ 0x9908B0DF

/-- A fresh set of words, each made in place from the old ones and the new ones before it. -/
def refill (words : Vector UInt32 twisterSize) : Vector UInt32 twisterSize :=
  let rec go (words : Vector UInt32 twisterSize) (i : Nat) : Nat → Vector UInt32 twisterSize
    | 0 => words
    | left + 1 => go (words.setIfInBounds i (twist words i)) (i + 1) left
  go words 0 twisterSize

/-- Evens out the bits of a word on its way out. -/
def temper (y : UInt32) : UInt32 :=
  let y := y ^^^ (y >>> 11)
  let y := y ^^^ ((y <<< 7) &&& 0x9D2C5680)
  let y := y ^^^ ((y <<< 15) &&& 0xEFC60000)
  y ^^^ (y >>> 18)

/-- Draws a word. -/
def next (t : Twister) : UInt32 × Twister :=
  if t.drawn < twisterSize then
    (temper (t.words[t.drawn]?.getD 0), ⟨t.words, t.drawn + 1⟩)
  else
    let words := refill t.words
    (temper words[0], ⟨words, 1⟩)

/-- Draws the leading nine bits of words until they are a byte, for at most `tries` words. -/
def drawByte (t : Twister) : Nat → UInt8 × Twister
  | 0 => (0, t)
  | tries + 1 =>
    let (word, t) := t.next
    if word >>> 23 ≤ 255 then ((word >>> 23).toUInt8, t) else t.drawByte tries

/-- The leading bits of successive words form a linear recurring sequence of maximal length and
order 19937, in which at most that many ones follow each other. -/
def maxTries : Nat := 19938

/-- Draws a byte, all bytes being equally likely. -/
def byte (t : Twister) : UInt8 × Twister := t.drawByte maxTries

end Twister

end ChipEight
