import ChipEight.CommandLine.Arguments
import Mathlib.Algebra.Ring.Nat
import Mathlib.Data.List.TakeWhile

/-!
# Arguments written out

Integers are read as they are printed, up to the number of digits that is accepted.  So whatever the
arguments say can be said on the command line: with each option written out in full, its value in an
argument of its own, and the path behind a separator, they are read as they are.
-/

namespace ChipEight

namespace Numeral

variable {c : Char} {cs : List Char} {n : Nat}

/-! ## Digits -/

theorem toNat_of_isDigit (h : c.isDigit = true) : 48 ≤ c.toNat ∧ c.toNat ≤ 57 := by
  simpa [Char.isDigit, UInt32.le_iff_toNat_le] using h

theorem digitValue?_of_isDigit (h : c.isDigit = true) :
    Text.digitValue? c = some (c.toNat - 48) := by
  obtain ⟨hlow, hhigh⟩ := toNat_of_isDigit h
  obtain ⟨others, hzeros⟩ : ∃ others, Text.digitZeros = 48 :: others := ⟨_, rfl⟩
  rw [Text.digitValue?, hzeros, List.find?_cons_of_pos]
  · rfl
  · simp only [Bool.and_eq_true, decide_eq_true_eq]
    omega

theorem ne_of_isDigit {d : Char} (hc : c.isDigit = true) (hd : d.isDigit = false) : c ≠ d := by
  rintro rfl
  exact Bool.noConfusion (hc.symm.trans hd)

theorem isDecimalDigit_of_isDigit (h : c.isDigit = true) : Text.isDecimalDigit c = true := by
  rw [Text.isDecimalDigit, digitValue?_of_isDigit h]
  rfl

theorem isBlank_of_isDigit (h : c.isDigit = true) : Text.isBlank c = false := by
  obtain ⟨hlow, hhigh⟩ := toNat_of_isDigit h
  simp only [Text.isBlank, Text.isAsciiBlank, Text.isWideBlank, Bool.or_eq_false_iff,
    Bool.and_eq_false_iff, beq_eq_false_iff_ne, decide_eq_false_iff_not]
  omega

theorem digitValues?_cons (h : c ≠ '_') :
    digitValues? (c :: cs) = (do
      let d ← Text.digitValue? c
      let ds ← digitValues? cs
      pure (d :: ds)) := by
  rw [digitValues?]
  · rintro rfl
    exact absurd rfl h
  · rintro _ _ rfl
    exact absurd rfl h

theorem digitValues?_of_isDigit (h : ∀ c ∈ cs, c.isDigit = true) :
    digitValues? cs = some (cs.map fun c ↦ c.toNat - 48) := by
  induction cs with
  | nil => rfl
  | cons c cs ih =>
    obtain ⟨hc, hcs⟩ := List.forall_mem_cons.1 h
    rw [digitValues?_cons (ne_of_isDigit hc (by decide)), digitValue?_of_isDigit hc, ih hcs]
    rfl

/-! ## Printed integers -/

theorem isDigit_toDigits (n : Nat) : ∀ c ∈ Nat.toDigits 10 n, c.isDigit = true := fun _ hc ↦
  Nat.isDigit_of_mem_toDigits (by decide) le_rfl hc

/-- The digits of a number begin with one. -/
theorem toDigits_eq_cons (n : Nat) :
    ∃ c cs, Nat.toDigits 10 n = c :: cs ∧ c.isDigit = true ∧ ∀ c ∈ cs, c.isDigit = true := by
  obtain ⟨c, cs, hcs⟩ := List.exists_cons_of_ne_nil (Nat.toDigits_ne_nil (n := n) (b := 10))
  have hdigits := isDigit_toDigits n
  rw [hcs, List.forall_mem_cons] at hdigits
  exact ⟨c, cs, hcs, hdigits⟩

/-- The digits of a number are read as that number. -/
theorem natural?_toDigits (h : n < 10 ^ maxIntegerDigits) :
    natural? (Nat.toDigits 10 n) = some n := by
  have hlength : (Nat.toDigits 10 n).length ≤ maxIntegerDigits :=
    (Nat.length_toDigits_le_iff (by decide) (by decide)).2 h
  have hvalue : ofDigits ((Nat.toDigits 10 n).map fun c ↦ c.toNat - 48) = n := by
    rw [ofDigits, List.foldl_map]
    exact Nat.ofDigitChars_eq_foldl.symm.trans Nat.ofDigitChars_ten_toDigits
  have hdigits := digitValues?_of_isDigit (isDigit_toDigits n)
  obtain ⟨c, cs, hcs, hc, -⟩ := toDigits_eq_cons n
  rw [hcs] at hlength hvalue hdigits ⊢
  rw [natural?, hdigits]
  · change (if _ then _ else _) = _
    rw [List.length_map, if_pos hlength, hvalue]
  · exact nofun
  · rintro _ ⟨⟩
    cases hc

/-- An integer in decimal: its digits, behind a dash if it is negative. -/
theorem toList_toString (n : Int) :
    (toString n).toList = if n < 0 then '-' :: Nat.toDigits 10 n.natAbs
      else Nat.toDigits 10 n.natAbs := by
  rw [Int.toString_eq_repr, Int.repr_eq_if]
  obtain hneg | hpos := Int.lt_or_le n 0
  · have habs : (-n).toNat = n.natAbs := by omega
    rw [if_pos hneg, if_neg (Int.not_le.2 hneg), habs, Nat.repr_eq_ofList_toDigits]
    simp only [String.toList_append, String.toList_ofList]
    rfl
  · have habs : n.toNat = n.natAbs := by omega
    rw [if_neg (Int.not_lt.2 hpos), if_pos hpos, habs, Nat.repr_eq_ofList_toDigits,
      String.toList_ofList]

theorem trimBlanks_eq_self (h : ∀ c ∈ cs, Text.isBlank c = false) : trimBlanks cs = cs := by
  have hkept {ds : List Char} (hds : ∀ c ∈ ds, Text.isBlank c = false) :
      ds.dropWhile Text.isBlank = ds := by
    cases ds with
    | nil => rfl
    | cons d ds => exact List.dropWhile_cons_of_neg (by simp [hds])
  have hreverse : ∀ c ∈ cs.reverse, Text.isBlank c = false := fun c hc ↦
    h c (List.mem_reverse.1 hc)
  rw [trimBlanks, hkept h, hkept hreverse, List.reverse_reverse]

/-- An integer is read as it is printed. -/
theorem integer?_toString {n : Int} (h : n.natAbs < 10 ^ maxIntegerDigits) :
    integer? (toString n) = some n := by
  have hread := natural?_toDigits h
  have hblank : ∀ c ∈ Nat.toDigits 10 n.natAbs, Text.isBlank c = false := fun c hc ↦
    isBlank_of_isDigit (isDigit_toDigits _ c hc)
  rw [integer?, toList_toString]
  split
  · next hneg =>
    have habs : -(n.natAbs : Int) = n := by omega
    rw [trimBlanks_eq_self (List.forall_mem_cons.2 ⟨by decide, hblank⟩), signed?, hread]
    exact congrArg some habs
  · next hpos =>
    have habs : Int.ofNat n.natAbs = n := Int.natAbs_of_nonneg (Int.not_lt.1 hpos)
    rw [trimBlanks_eq_self hblank]
    obtain ⟨c, cs, hcs, hc, -⟩ := toDigits_eq_cons n.natAbs
    rw [hcs] at hread ⊢
    rw [signed?, hread, Option.map_some, habs]
    · rintro _ ⟨⟩
      cases hc
    · rintro _ ⟨⟩
      cases hc

end Numeral

namespace Token

variable {s : String}

/-! ## Kinds of arguments -/

theorem classify_of_head?_ne (h : s.toList.head? ≠ some '-') : classify s = .ok (.operand s) :=
  if_pos h

/-- An option that is written out stands for itself. -/
theorem classify_longName (f : Flag) : classify f.longName = .ok (.option f .none) := by
  have hdash : f.longName.toList.head? = some '-' := by cases f <;> decide +kernel
  rw [classify, if_neg (not_not.2 hdash), f.ofSpelling?_longName]

theorem ofLetter?_of_isDigit {c : Char} (h : c.isDigit = true) : Flag.ofLetter? c = none := by
  have hc : c ≠ 'h' := Numeral.ne_of_isDigit h (by decide)
  rw [Flag.ofLetter?, List.find?_eq_none]
  intro f _
  cases f <;> simp [Flag.letter?, hc.symm]

/-- No option begins with a dash and a digit. -/
theorem ofSpelling?_of_isDigit {c : Char} {cs : List Char} (hs : s.toList = '-' :: c :: cs)
    (hc : c.isDigit = true) : Flag.ofSpelling? s = none := by
  have hletter (f : Flag) : ∀ t ∈ f.spellings, ∃ d ds, t.toList = '-' :: d :: ds ∧
      d.isDigit = false := by
    cases f <;> simp [Flag.spellings, Flag.shortName?, Flag.letter?, Flag.longName]
  rw [Flag.ofSpelling?, List.find?_eq_none]
  intro f _ hf
  obtain ⟨d, ds, hd, hdigit⟩ := hletter f s (by simpa using hf)
  obtain ⟨rfl, -⟩ := by simpa using hs.symm.trans hd
  exact Bool.noConfusion (hdigit.symm.trans hc)

theorem splitAtEquals_of_notMem {cs : List Char} (h : '=' ∉ cs) :
    splitAtEquals cs = (cs, none) := by
  have hdrop : cs.dropWhile (· ≠ '=') = [] := by
    rw [List.dropWhile_eq_nil_iff]
    intro c hc
    have hne : c ≠ '=' := fun heq ↦ h (heq ▸ hc)
    simpa using hne
  rw [splitAtEquals, hdrop]

theorem isDigits_of_isDigit {cs : List Char} (hcs : cs ≠ []) (h : ∀ c ∈ cs, c.isDigit = true) :
    isDigits cs = true := by
  have hdecimal : ∀ c ∈ cs, Text.isDecimalDigit c = true := fun c hc ↦
    Numeral.isDecimalDigit_of_isDigit (h c hc)
  rw [isDigits, List.takeWhile_eq_self_iff.2 hdecimal, List.dropWhile_eq_nil_iff.2 hdecimal]
  simpa using hcs

/-- An integer is an operand, also if it is negative. -/
theorem classify_toString (n : Int) : classify (toString n) = .ok (.operand (toString n)) := by
  have hlist := Numeral.toList_toString n
  obtain ⟨c, cs, hdigits, hc, hcs⟩ := Numeral.toDigits_eq_cons n.natAbs
  rw [hdigits] at hlist
  split at hlist
  · have hequals : '=' ∉ (toString n).toList := by
      rw [hlist]
      simp only [List.mem_cons, not_or]
      refine ⟨by decide, (Numeral.ne_of_isDigit hc (by decide)).symm, fun h ↦ ?_⟩
      exact absurd (hcs _ h) (by decide)
    have hspelling := ofSpelling?_of_isDigit hlist hc
    have hcandidates : candidates (toString n).toList = [] := by
      rw [hlist, candidates, ofLetter?_of_isDigit hc]
      · rfl
      · rintro rfl
        cases hc
    have hnumber : isNegativeNumber (toString n).toList = true := by
      rw [hlist, isNegativeNumber, isDigits_of_isDigit (by simp) (List.forall_mem_cons.2 ⟨hc, hcs⟩)]
      rfl
    rw [classify, if_neg (by rw [hlist]; simp), hspelling, if_neg (by rw [hlist]; simp),
      splitAtEquals_of_notMem hequals]
    simp only [String.ofList_toList, hspelling, hcandidates, hnumber, Bool.true_or, if_true]
  · refine classify_of_head?_ne ?_
    rw [hlist, List.head?_cons]
    exact fun h ↦ Numeral.ne_of_isDigit hc (by decide) (Option.some.inj h)

/-- A word that is not the separator is read on its own. -/
theorem ofArguments_cons {s : String} {t : Token} {rest : List String} {ts : List Token}
    (hs : classify s = .ok t) (hrest : ofArguments rest = .ok ts) :
    ofArguments (s :: rest) = .ok (t :: ts) := by
  rw [ofArguments, hs, hrest]
  · rfl
  · rintro rfl
    have hseparator : ∃ text, classify "--" = .error text := ⟨_, rfl⟩
    obtain ⟨_, herror⟩ := hseparator
    cases hs.symm.trans herror

end Token

/-! ## Choices -/

/-- An option that is chosen, with its value if it takes one. -/
inductive Choice where
  | flag (f : Flag)
  | value (f : Flag) (text : String)
deriving DecidableEq, Repr

namespace Choice

/-- The arguments that make the choice on the command line. -/
def words : Choice → List String
  | .flag f => [f.longName]
  | .value f text => [f.longName, text]

/-- What the arguments are. -/
def tokens : Choice → List Token
  | .flag f => [.option f .none]
  | .value f text => [.option f .none, .operand text]

/-- The arguments when the choice has been made. -/
def apply (a : Arguments) : Choice → Except Leave Arguments
  | .flag f => a.setFlag f
  | .value f text => a.setValue f text

/-- There is a value if and only if the option takes one, and it does not look like an option. -/
def Sound : Choice → Prop
  | .flag f => f.takesValue = false
  | .value f text => f.takesValue = true ∧ Token.classify text = .ok (.operand text)

instance : DecidablePred Sound
  | .flag f => inferInstanceAs (Decidable (f.takesValue = false))
  | .value f text =>
    inferInstanceAs (Decidable (f.takesValue = true ∧ Token.classify text = .ok (.operand text)))

theorem ofArguments_words {c : Choice} {rest : List String} {ts : List Token} (hc : c.Sound)
    (hrest : Token.ofArguments rest = .ok ts) :
    Token.ofArguments (c.words ++ rest) = .ok (c.tokens ++ ts) := by
  cases c with
  | flag f => exact Token.ofArguments_cons (Token.classify_longName f) hrest
  | value f text =>
    exact Token.ofArguments_cons (Token.classify_longName f) (Token.ofArguments_cons hc.2 hrest)

/-- Reading goes on behind an option with what the option leaves. -/
theorem tokens_of_option {p q : Arguments.Progress} {f : Flag} {ts us : List Token}
    (h : p.option f .none ts = .ok (q, us)) :
    p.tokens (.option f .none :: ts) = q.tokens us := by
  rw [Arguments.Progress.tokens, if_pos (by simp [Token.isOption])]
  split
  · next herror => cases h.symm.trans herror
  · next hok =>
    cases h.symm.trans hok
    rfl

theorem tokens_append {c : Choice} {a b : Arguments} (hc : c.Sound) (h : c.apply a = .ok b)
    (taken : Bool) (extras : List String) (ts : List Token) :
    Arguments.Progress.tokens ⟨a, taken, extras⟩ (c.tokens ++ ts) =
      Arguments.Progress.tokens ⟨b, taken, extras⟩ ts := by
  cases c with
  | flag f =>
    have htakes : f.takesValue = false := hc
    have hset : a.setFlag f = .ok b := h
    refine tokens_of_option ?_
    unfold Arguments.Progress.option
    rw [if_neg (by simp [htakes])]
    change (Arguments.Progress.setFlags _ [f]).map _ = _
    rw [Arguments.Progress.setFlags, List.foldlM_cons, hset]
    rfl
  | value f text =>
    have hset : a.setValue f text = .ok b := h
    refine tokens_of_option ?_
    unfold Arguments.Progress.option
    rw [if_pos hc.1]
    change (Arguments.Progress.setValue _ f text).map _ = _
    rw [Arguments.Progress.setValue, hset]
    rfl

/-- Choices made one after the other lead from some arguments to others. -/
def Lead (cs : List Choice) (a b : Arguments) : Prop := cs.foldlM apply a = .ok b

theorem Lead.append {cs ds : List Choice} {a b c : Arguments} (hcs : Lead cs a b)
    (hds : Lead ds b c) : Lead (cs ++ ds) a c := by
  rw [Lead] at hcs
  rw [Lead, List.foldlM_append, hcs]
  exact hds

theorem tokens_flatMap {cs : List Choice} {a b : Arguments} (hcs : ∀ c ∈ cs, c.Sound)
    (h : Lead cs a b) (taken : Bool) (extras : List String) (ts : List Token) :
    Arguments.Progress.tokens ⟨a, taken, extras⟩ (cs.flatMap tokens ++ ts) =
      Arguments.Progress.tokens ⟨b, taken, extras⟩ ts := by
  induction cs generalizing a with
  | nil =>
    cases h
    rfl
  | cons c cs ih =>
    obtain ⟨hc, hcs⟩ := List.forall_mem_cons.1 hcs
    rw [Lead, List.foldlM_cons] at h
    cases ha : c.apply a with
    | error e =>
      rw [ha] at h
      cases h
    | ok a' =>
      rw [ha] at h
      rw [List.flatMap_cons, List.append_assoc, tokens_append hc ha, ih hcs h]

theorem ofArguments_flatMap {cs : List Choice} {rest : List String} {ts : List Token}
    (hcs : ∀ c ∈ cs, c.Sound) (hrest : Token.ofArguments rest = .ok ts) :
    Token.ofArguments (cs.flatMap words ++ rest) = .ok (cs.flatMap tokens ++ ts) := by
  induction cs with
  | nil => exact hrest
  | cons c cs ih =>
    obtain ⟨hc, hcs⟩ := List.forall_mem_cons.1 hcs
    rw [List.flatMap_cons, List.flatMap_cons, List.append_assoc, List.append_assoc]
    exact ofArguments_words hc (ih hcs)

/-- The choice of an option that takes no value, if it is on. -/
def switch (f : Flag) (on : Bool) : List Choice := if on then [.flag f] else []

/-- The choice of a number, if there is one. -/
def number (f : Flag) (n : Option Int) : List Choice :=
  (n.map fun n ↦ .value f (toString n)).toList

end Choice

namespace Arguments

/-- The choices that the arguments make, but for the ROM. -/
def choices (a : Arguments) : List Choice :=
  Choice.switch .demo a.demo ++ Choice.number .scale (some a.scale) ++
  Choice.number .clock (some a.clock) ++ Choice.number .fps (some a.fps) ++
  Choice.switch .legacyStore a.legacyStore ++ Choice.number .tone (some a.tone) ++
  Choice.switch .debug a.debug ++ Choice.number .seed a.seed ++
  Choice.number .headless a.headless ++ [.value .logLevel a.logLevel.name]

/-- The arguments written out. -/
def spelling (a : Arguments) : List String :=
  a.choices.flatMap Choice.words ++ a.rom.elim [] fun path ↦ ["--", path]

/-- The numbers have no more digits than are accepted. -/
structure Spellable (a : Arguments) : Prop where
  scale : a.scale.natAbs < 10 ^ Numeral.maxIntegerDigits
  clock : a.clock.natAbs < 10 ^ Numeral.maxIntegerDigits
  fps : a.fps.natAbs < 10 ^ Numeral.maxIntegerDigits
  tone : a.tone.natAbs < 10 ^ Numeral.maxIntegerDigits
  seed : ∀ n ∈ a.seed, n.natAbs < 10 ^ Numeral.maxIntegerDigits
  headless : ∀ n ∈ a.headless, n.natAbs < 10 ^ Numeral.maxIntegerDigits

variable {a b : Arguments}

/-- The value of a number is the number. -/
theorem integer_toString (f : Flag) {n : Int} (h : n.natAbs < 10 ^ Numeral.maxIntegerDigits) :
    integer f (toString n) = .ok n := by
  rw [integer, Numeral.integer?_toString h]

/-- What is made of a number is made of it when it is printed. -/
theorem map_integer_toString {f : Flag} {n : Int} {put : Int → Arguments}
    (h : n.natAbs < 10 ^ Numeral.maxIntegerDigits) :
    (integer f (toString n)).map put = .ok (put n) := by
  rw [integer_toString f h]
  rfl

theorem lead_singleton {c : Choice} (h : c.apply a = .ok b) : Choice.Lead [c] a b := by
  rw [Choice.Lead, List.foldlM_cons, h]
  rfl

theorem lead_switch {f : Flag} {on : Bool} (hon : on = true → a.setFlag f = .ok b)
    (hoff : on = false → b = a) : Choice.Lead (Choice.switch f on) a b := by
  cases on with
  | true => exact lead_singleton (hon rfl)
  | false =>
    rw [hoff rfl]
    rfl

theorem lead_number {f : Flag} {n : Option Int}
    (hsome : ∀ m, n = some m → a.setValue f (toString m) = .ok b) (hnone : n = none → b = a) :
    Choice.Lead (Choice.number f n) a b := by
  cases n with
  | some m => exact lead_singleton (hsome m rfl)
  | none =>
    rw [hnone rfl]
    rfl

/-- The choices that the arguments make lead to them. -/
theorem lead_choices (ha : a.Spellable) : Choice.Lead a.choices {} { a with rom := none } := by
  obtain ⟨rom, demo, scale, clock, fps, legacyStore, tone, debug, seed, headless, logLevel⟩ := a
  have hdemo : Choice.Lead (Choice.switch .demo demo) {} { demo } :=
    lead_switch (by rintro rfl; rfl) (by rintro rfl; rfl)
  have hscale : Choice.Lead (Choice.number .scale scale) { demo } { demo, scale } :=
    lead_singleton (map_integer_toString ha.scale)
  have hclock : Choice.Lead (Choice.number .clock clock) { demo, scale } { demo, scale, clock } :=
    lead_singleton (map_integer_toString ha.clock)
  have hfps : Choice.Lead (Choice.number .fps fps) { demo, scale, clock }
      { demo, scale, clock, fps } :=
    lead_singleton (map_integer_toString ha.fps)
  have hlegacyStore : Choice.Lead (Choice.switch .legacyStore legacyStore)
      { demo, scale, clock, fps } { demo, scale, clock, fps, legacyStore } :=
    lead_switch (by rintro rfl; rfl) (by rintro rfl; rfl)
  have htone : Choice.Lead (Choice.number .tone tone) { demo, scale, clock, fps, legacyStore }
      { demo, scale, clock, fps, legacyStore, tone } :=
    lead_singleton (map_integer_toString ha.tone)
  have hdebug : Choice.Lead (Choice.switch .debug debug)
      { demo, scale, clock, fps, legacyStore, tone }
      { demo, scale, clock, fps, legacyStore, tone, debug } :=
    lead_switch (by rintro rfl; rfl) (by rintro rfl; rfl)
  have hseed : Choice.Lead (Choice.number .seed seed)
      { demo, scale, clock, fps, legacyStore, tone, debug }
      { demo, scale, clock, fps, legacyStore, tone, debug, seed } :=
    lead_number (by rintro m rfl; exact map_integer_toString (ha.seed m rfl)) (by rintro rfl; rfl)
  have hheadless : Choice.Lead (Choice.number .headless headless)
      { demo, scale, clock, fps, legacyStore, tone, debug, seed }
      { demo, scale, clock, fps, legacyStore, tone, debug, seed, headless } :=
    lead_number (by rintro m rfl; exact map_integer_toString (ha.headless m rfl))
      (by rintro rfl; rfl)
  have hlevel : Choice.Lead [.value .logLevel logLevel.name]
      { demo, scale, clock, fps, legacyStore, tone, debug, seed, headless }
      { demo, scale, clock, fps, legacyStore, tone, debug, seed, headless, logLevel } := by
    refine lead_singleton ?_
    rw [Choice.apply, setValue, level, Level.ofName?_name]
    rfl
  exact ((((((((hdemo.append hscale).append hclock).append hfps).append hlegacyStore).append
    htone).append hdebug).append hseed).append hheadless).append hlevel

theorem sound_switch {f : Flag} (hf : f.takesValue = false) (on : Bool) :
    ∀ c ∈ Choice.switch f on, c.Sound := by
  intro c hc
  cases on with
  | true =>
    rw [List.mem_singleton.1 hc]
    exact hf
  | false => cases hc

theorem sound_number {f : Flag} (hf : f.takesValue = true) (n : Option Int) :
    ∀ c ∈ Choice.number f n, c.Sound := by
  intro c hc
  cases n with
  | some m =>
    rw [List.mem_singleton.1 hc]
    exact ⟨hf, Token.classify_toString m⟩
  | none => cases hc

theorem sound_choices (a : Arguments) : ∀ c ∈ a.choices, c.Sound := by
  have hlevel : ∀ c ∈ [Choice.value .logLevel a.logLevel.name], c.Sound := by
    intro c hc
    rw [List.mem_singleton.1 hc]
    refine ⟨rfl, Token.classify_of_head?_ne ?_⟩
    cases a.logLevel <;> decide
  simp only [choices, List.forall_mem_append]
  and_intros
  exacts [sound_switch rfl _, sound_number rfl _, sound_number rfl _, sound_number rfl _,
    sound_switch rfl _, sound_number rfl _, sound_switch rfl _, sound_number rfl _,
    sound_number rfl _, hlevel]

/-- The path behind the separator is read as the path of the ROM. -/
theorem tokens_rom (hb : b.rom = none) (rom : Option String) :
    ∃ ts, Token.ofArguments (rom.elim [] fun path ↦ ["--", path]) = .ok ts ∧
      Progress.tokens ⟨b, false, []⟩ ts = .ok ⟨{ b with rom := rom }, rom.isSome, []⟩ := by
  cases rom with
  | none =>
    refine ⟨[], rfl, ?_⟩
    rw [Progress.tokens, if_neg (by simp)]
    obtain ⟨_⟩ := b
    cases hb
    rfl
  | some path =>
    refine ⟨[.separator, .operand path], rfl, ?_⟩
    rw [Progress.tokens, if_neg (by simp [Token.isOption])]
    rfl

/-- Choices and a path are read as what they lead to. -/
theorem read_words {cs : List Choice} (hcs : ∀ c ∈ cs, c.Sound) (h : Choice.Lead cs {} b)
    (hb : b.rom = none) (rom : Option String) :
    read (cs.flatMap Choice.words ++ rom.elim [] fun path ↦ ["--", path]) =
      .ok { b with rom := rom } := by
  obtain ⟨ts, hrest, hrom⟩ := tokens_rom hb rom
  rw [read, Choice.ofArguments_flatMap hcs hrest]
  change (Progress.tokens ⟨{}, false, []⟩ _ >>= _) = _
  rw [Choice.tokens_flatMap hcs h, hrom]
  rfl

/-- Arguments are read as they are written out. -/
theorem read_spelling (ha : a.Spellable) : read a.spelling = .ok a :=
  read_words (sound_choices a) (lead_choices ha) rfl a.rom

end Arguments

end ChipEight
