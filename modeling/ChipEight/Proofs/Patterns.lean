import ChipEight.Proofs.Step

/-!
# Patterns

The instruction set is described twice: by the patterns of its words, and by the nested cases of
`Opcode.decode`.  The two agree.  A word has an operation exactly if its digits match the pattern,
no word matches two patterns, and the operands of a word, put into the pattern of its operation,
give the word again.
-/

namespace ChipEight

namespace Nibble

/-- The digits in upper case. -/
def digits : List Char := "0123456789ABCDEF".toList

/-- The digit of a nibble. -/
def digit (d : Nibble) : Char := digits[d.val]?.getD '0'

/-- The nibble of a digit. -/
def ofDigit (c : Char) : Nibble := .ofNat (digits.idxOf c)

theorem eq_ofNat {d : Nibble} {k : Nat} (h : d.val = k) : d = ofNat k := by
  subst h
  exact Fin.ext (Nat.mod_eq_of_lt d.isLt).symm

@[simp]
theorem ofDigit_digit (d : Nibble) : ofDigit d.digit = d := by
  revert d
  decide

theorem digit_eq_toUpper (d : Nibble) : d.digit = (Nat.digitChar d.val).toUpper := by
  revert d
  decide

end Nibble

namespace Numeral

/-- The upper-case numeral of a number, filled up with zeros in front. -/
def padded (width n : Nat) : List Char :=
  List.replicate (width - (hexDigits n).length) '0' ++ (hexDigits n).map Char.toUpper

theorem padHex_natCast (width n : Nat) : padHex width n = String.ofList (padded width n) := by
  rw [padHex, if_neg (by omega), List.nil_append, List.length_map]
  rfl

theorem padded_one (d : Nibble) : padded 1 d = [d.digit] := by
  rw [padded, hexDigits, Nat.toDigits_of_lt_base d.isLt, Nibble.digit_eq_toUpper]
  rfl

/-- The last digit stands behind the numeral of what is before it. -/
theorem padded_succ {width : Nat} (hwidth : 0 < width) (n : Nat) (d : Nibble) :
    padded (width + 1) (16 * n + d) = padded width n ++ [d.digit] := by
  rw [Nibble.digit_eq_toUpper]
  obtain rfl | hn := Nat.eq_zero_or_pos n
  · obtain ⟨k, rfl⟩ : ∃ k, width = k + 1 := ⟨width - 1, by omega⟩
    rw [Nat.mul_zero, Nat.zero_add, padded, padded, hexDigits, hexDigits,
      Nat.toDigits_of_lt_base d.isLt, Nat.toDigits_of_lt_base (by decide)]
    exact congrArg (· ++ [d.val.digitChar.toUpper]) List.replicate_succ'
  · rw [padded, padded, hexDigits, hexDigits,
      ← Nat.toDigits_append_toDigits (by decide) hn d.isLt, Nat.toDigits_of_lt_base d.isLt,
      List.length_append, List.length_singleton, Nat.add_sub_add_right, List.map_append,
      List.append_assoc]
    rfl

end Numeral

namespace Word

variable (w : Word)

/-- The four digits. -/
def digits : List Nibble := [w.family, w.x, w.y, w.n]

theorem toList_text : w.text.toList = w.digits.map Nibble.digit := by
  have hw : w.toNat = 16 * (16 * (16 * w.family + w.x) + w.y) + w.n := by
    rw [toNat]
    omega
  rw [text, Numeral.padHex_natCast, String.toList_ofList, hw]
  rw [Numeral.padded_succ (by decide), Numeral.padded_succ (by decide),
    Numeral.padded_succ (by decide), Numeral.padded_one]
  rfl

/-- The digit with the given number of digits behind. -/
def digitAt (behind : Nat) : Nibble := w.digits.reverse[behind]?.getD w.n

theorem digitAt_eq_ofNat {k : Nat} (hk : k < 4) : w.digitAt k = .ofNat (w.toNat / 16 ^ k) := by
  obtain ⟨family, x, y, n⟩ := w
  refine Fin.ext ?_
  match k, hk with
  | 0, _ | 1, _ | 2, _ | 3, _ =>
    simp [digitAt, digits, Nibble.ofNat, toNat]
    omega

/-- The digits of a number that the last digits of a word make up. -/
theorem ofNat_mod_div {row k : Nat} (hk : k < row) (hrow : row < 4) :
    Nibble.ofNat (w.toNat % 16 ^ row / 16 ^ k) = w.digitAt k := by
  rw [w.digitAt_eq_ofNat (Nat.lt_trans hk hrow)]
  obtain ⟨j, rfl⟩ := Nat.exists_eq_add_of_lt hk
  refine Fin.ext ?_
  simp only [Nibble.ofNat]
  rw [Nat.pow_succ', Nat.pow_add, ← Nat.mul_assoc, Nat.mul_comm 16, Nat.mul_assoc,
    Nat.mod_mul_right_div_self, Nat.mod_mul_right_mod]

theorem toNat_nn_eq_mod : w.nn.toNat = w.toNat % 256 := by
  rw [toNat_nn, toNat]
  omega

theorem nnn_eq_mod : w.nnn = w.toNat % 4096 := by
  rw [nnn, toNat]
  omega

end Word

/-- What an instruction is about, as it stands in a word: digits, a byte and an address. -/
structure Operands where
  x : Nibble
  y : Nibble
  n : Nibble
  nn : UInt8
  nnn : Nat

/-- The operands of a word. -/
def Word.operands (w : Word) : Operands := ⟨w.x, w.y, w.n, w.nn, w.nnn⟩

namespace Operands

/-- The number that is written in place of a row of letters `N`: as many digits as there are
letters. -/
def number (a : Operands) : Nat → Nat
  | 1 => a.n
  | 2 => a.nn.toNat
  | _ => a.nnn

/-- The digit in place of a letter of a pattern, given the length of its row of letters `N` and the
number of letters behind. -/
def digitFor (a : Operands) (row : Nat) (letter : Char) (behind : Nat) : Nibble :=
  if letter = 'X' then a.x
  else if letter = 'Y' then a.y
  else if letter = 'N' then .ofNat (a.number row / 16 ^ behind)
  else .ofDigit letter

end Operands

namespace Opcode

/-- The letter of a pattern with the given number of letters behind. -/
def letter (o : Opcode) (behind : Nat) : Char := o.pattern.toList.reverse[behind]?.getD '0'

/-- The length of the row of letters `N` in a pattern. -/
def row (o : Opcode) : Nat := o.pattern.toList.count 'N'

/-- The word of an operation with the given operands, put in place of the letters of the pattern. -/
def encode (o : Opcode) (a : Operands) : Word :=
  let digitAt behind := a.digitFor o.row (o.letter behind) behind
  ⟨digitAt 3, digitAt 2, digitAt 1, digitAt 0⟩

/-- Text matches a pattern, whose letters `X`, `Y` and `N` stand for any digit. -/
def fits : List Char → List Char → Bool
  | [], [] => true
  | p :: pattern, c :: text => (p = 'X' || p = 'Y' || p = 'N' || p = c) && fits pattern text
  | _, _ => false

theorem fits_cons {p c : Char} {pattern text : List Char} :
    fits (p :: pattern) (c :: text) = true ↔
      (p = 'X' ∨ p = 'Y' ∨ p = 'N' ∨ p = c) ∧ fits pattern text = true := by
  simp [fits, or_assoc]

theorem fits_self (text : List Char) : fits text text = true := by
  induction text with
  | nil => rfl
  | cons c text ih => exact fits_cons.2 ⟨.inr (.inr (.inr rfl)), ih⟩

/-- The digits of a word match the pattern of an operation. -/
def Matches (o : Opcode) (w : Word) : Prop := fits o.pattern.toList w.text.toList = true

/-- Whatever the operands, the digits that are left of the pattern decide. -/
theorem decode_encode (o : Opcode) (a : Operands) : decode (o.encode a) = some o := by
  cases o <;> rfl

variable {o : Opcode} {w : Word}

theorem pattern_of_ofArithmetic? :
    ∀ n, ∀ o ∈ ofArithmetic? n, o.pattern.toList = ['8', 'X', 'Y', n.digit] := by
  decide

theorem pattern_of_ofMiscellany? :
    ∀ y n, ∀ o ∈ ofMiscellany? y n, o.pattern.toList = ['F', 'X', y.digit, n.digit] := by
  decide

theorem matches_of_decode (h : decode w = some o) : o.Matches w := by
  obtain ⟨family, x, y, n⟩ := w
  rw [Matches, Word.toList_text]
  unfold decode at h
  split at h
  -- Families of a single operation.
  case h_2 hf | h_3 hf | h_4 hf | h_5 hf | h_7 hf | h_8 hf | h_11 hf | h_12 hf | h_13 hf
    | h_14 hf =>
    obtain rfl := Nibble.eq_ofNat hf
    cases h
    rfl
  -- The two words of the first family.
  case h_1 hf =>
    obtain rfl := Nibble.eq_ofNat hf
    split at h
    case h_1 hx hy hn | h_2 hx hy hn =>
      obtain rfl := Nibble.eq_ofNat hx
      obtain rfl := Nibble.eq_ofNat hy
      obtain rfl := Nibble.eq_ofNat hn
      cases h
      rfl
    case h_3 => cases h
  -- Families whose last digit has to be zero.
  case h_6 hf | h_10 hf =>
    obtain rfl := Nibble.eq_ofNat hf
    split at h
    case isTrue hn =>
      obtain rfl := Nibble.eq_ofNat hn
      cases h
      rfl
    case isFalse => cases h
  -- Families whose last digits tell the operation.
  case h_9 hf =>
    obtain rfl := Nibble.eq_ofNat hf
    rw [pattern_of_ofArithmetic? n o h]
    exact fits_self [n.digit]
  case h_15 hf =>
    obtain rfl := Nibble.eq_ofNat hf
    split at h
    case h_1 hy hn | h_2 hy hn =>
      obtain rfl := Nibble.eq_ofNat hy
      obtain rfl := Nibble.eq_ofNat hn
      cases h
      rfl
    case h_3 => cases h
  case h_16 =>
    have hf : family.val = 15 := by
      simp only [imp_false] at *
      omega
    obtain rfl := Nibble.eq_ofNat hf
    rw [pattern_of_ofMiscellany? y n o h]
    exact fits_self [y.digit, n.digit]

/-! ## Putting operands into a pattern -/

/-- Each letter of a pattern stands at a place of its own: `X` and `Y` for the second and the third
digit, and `N` in a row at the end. -/
theorem letter_places (o : Opcode) :
    ∀ k < 4, (o.letter k = 'X' → k = 2) ∧ (o.letter k = 'Y' → k = 1) ∧
      (o.letter k = 'N' → k < o.row ∧ o.row < 4) := by
  cases o <;> decide

theorem toList_pattern (o : Opcode) :
    o.pattern.toList = [o.letter 3, o.letter 2, o.letter 1, o.letter 0] := by
  cases o <;> rfl

/-- A letter of a pattern that a word matches stands for an operand or is the digit in its place. -/
theorem letter_of_matches (h : o.Matches w) {k : Nat} (hk : k < 4) :
    o.letter k = 'X' ∨ o.letter k = 'Y' ∨ o.letter k = 'N' ∨ o.letter k = (w.digitAt k).digit := by
  rw [Matches, Word.toList_text, toList_pattern] at h
  obtain ⟨h₃, h⟩ := fits_cons.1 h
  obtain ⟨h₂, h⟩ := fits_cons.1 h
  obtain ⟨h₁, h⟩ := fits_cons.1 h
  obtain ⟨h₀, -⟩ := fits_cons.1 h
  match k, hk with
  | 0, _ => exact h₀
  | 1, _ => exact h₁
  | 2, _ => exact h₂
  | 3, _ => exact h₃

theorem number_operands (w : Word) {row : Nat} (hrow : 0 < row) (hrow' : row < 4) :
    w.operands.number row = w.toNat % 16 ^ row := by
  match row, hrow, hrow' with
  | 1, _, _ =>
    rw [Word.toNat]
    simp [Operands.number, Word.operands]
    omega
  | 2, _, _ => exact w.toNat_nn_eq_mod
  | 3, _, _ => exact w.nnn_eq_mod

theorem digitFor_operands (h : o.Matches w) {k : Nat} (hk : k < 4) :
    w.operands.digitFor o.row (o.letter k) k = w.digitAt k := by
  obtain ⟨hx, hy, hn⟩ := o.letter_places k hk
  have hletter := letter_of_matches h hk
  rw [Operands.digitFor]
  split_ifs with hX hY hN
  · obtain rfl := hx hX
    rfl
  · obtain rfl := hy hY
    rfl
  · obtain ⟨hk, hrow⟩ := hn hN
    rw [number_operands w (by omega) hrow, w.ofNat_mod_div hk hrow]
  · simp only [hX, hY, hN, false_or] at hletter
    rw [hletter, Nibble.ofDigit_digit]

theorem encode_operands (h : o.Matches w) : o.encode w.operands = w := by
  rw [encode]
  dsimp only
  rw [digitFor_operands h (by decide), digitFor_operands h (by decide),
    digitFor_operands h (by decide), digitFor_operands h (by decide)]
  rfl

theorem decode_eq_some_iff : decode w = some o ↔ o.Matches w := by
  constructor
  · exact matches_of_decode
  · intro h
    rw [← encode_operands h]
    exact decode_encode o _

end Opcode

theorem Machine.hasWord_iff {m : Machine} : m.HasWord ↔ 0 ≤ m.pc ∧ m.pc ≤ 4094 := by
  have hmemory : (memorySize : Int) = 4096 := rfl
  rw [HasWord]
  omega

namespace Processor

variable {p : Processor}

theorem ofWord?_eq_none_iff {w : Word} :
    Instruction.ofWord? w = none ↔ ∀ op : Opcode, ¬ op.Matches w := by
  rw [Instruction.ofWord?, Option.map_eq_none_iff, Option.eq_none_iff_forall_ne_some]
  exact forall_congr' fun op ↦ not_congr Opcode.decode_eq_some_iff

/-- A word that matches no pattern stops the processor, or is passed over if that has been asked
for; the fault carries the word in both cases. -/
theorem step_of_no_pattern (h : p.isHalted = false) (hw : p.machine.HasWord)
    (hnone : ∀ op : Opcode, ¬ op.Matches p.machine.word) :
    let fault : Fault := ⟨.unknownOpcode p.machine.word.toNat, some p.machine.pc⟩
    (p.debug = false → (step p).result = .error (.fault fault)) ∧
      (p.debug = true → (step p).result = .ok none ∧ (step p).log = [.skipped fault]) := by
  have hi := ofWord?_eq_none_iff.2 hnone
  intro fault
  constructor
  · intro hd
    rw [step_eq_of_stops h (.unknown hw hi hd)]
    rfl
  · intro hd
    rw [step_eq_of_skipped h hw hi hd]
    exact ⟨rfl, rfl⟩

/-- The patterns tell all about decoding.  A word in memory is fetched with its digits in order.  It
has an operation exactly if its digits match the pattern of the latter, which is the only one that
they match; a word that matches none is reported as it is.  The operands of a word are its digits,
alone or joined, and put in place of the letters of its pattern they give the word; whatever the
operands, the word that they give has the operation of the pattern. -/
theorem decoding_follows_patterns :
    (∀ m : Machine, 0 ≤ m.pc → m.pc ≤ 4094 →
      Machine.fetch m = ⟨{ m with pc := m.pc + 2 }, .ok m.word, []⟩ ∧
      m.word.toNat = 256 * (m.memory.byteAt m.pc.toNat).toNat +
        (m.memory.byteAt (m.pc.toNat + 1)).toNat) ∧
    (∀ w : Word,
      w.toNat = 4096 * w.family + 256 * w.x + 16 * w.y + w.n ∧
      w.text.toList = [w.family, w.x, w.y, w.n].map Nibble.digit ∧
      w.nn.toNat = w.toNat % 256 ∧ w.nnn = w.toNat % 4096 ∧
      (∀ op, Opcode.decode w = some op ↔ op.Matches w) ∧
      (∀ op op' : Opcode, op.Matches w → op'.Matches w → op = op') ∧
      ∀ op, Opcode.decode w = some op → op.encode w.operands = w) ∧
    (∀ op a, Opcode.decode (op.encode a) = some op) ∧
    ∀ p : Processor, p.isHalted = false → 0 ≤ p.machine.pc → p.machine.pc ≤ 4094 →
      (∀ op : Opcode, ¬ op.Matches p.machine.word) →
      let fault : Fault := ⟨.unknownOpcode p.machine.word.toNat, some p.machine.pc⟩
      (p.debug = false → (step p).result = .error (.fault fault)) ∧
      (p.debug = true → (step p).result = .ok none ∧ (step p).log = [.skipped fault]) := by
  refine ⟨fun m hlow hhigh ↦ ?fetch, fun w ↦ ?word, Opcode.decode_encode,
    fun p h hlow hhigh ↦ ?fault⟩
  case fetch =>
    have hw : m.HasWord := Machine.hasWord_iff.2 ⟨hlow, hhigh⟩
    exact ⟨Machine.fetch_of_hasWord hw, Word.toNat_ofBytes _ _⟩
  case word =>
    refine ⟨rfl, w.toList_text, w.toNat_nn_eq_mod, w.nnn_eq_mod, fun op ↦ Opcode.decode_eq_some_iff,
      fun op op' hop hop' ↦ ?_, fun op hop ↦ Opcode.encode_operands (Opcode.matches_of_decode hop)⟩
    rw [← Opcode.decode_eq_some_iff] at hop hop'
    exact Option.some.inj (hop.symm.trans hop')
  case fault =>
    exact step_of_no_pattern h (Machine.hasWord_iff.2 ⟨hlow, hhigh⟩)

/-- Of two words that differ in the last digit one has an operation, and the other is reported. -/
theorem near_miss_is_reported :
    let m : Machine :=
      { Machine.initial with memory := Memory.blank.splice startAddress [0x8A, 0xB8] }
    let p : Processor := { Processor.initial default false false with machine := m }
    (step p).result = .error (.fault ⟨.unknownOpcode 0x8AB8, some 0x200⟩) ∧
      Opcode.Matches .add ⟨8, 0xA, 0xB, 4⟩ := by
  intro m p
  obtain ⟨-, hwords, -, hfault⟩ := decoding_follows_patterns
  have hword : p.machine.word = ⟨8, 0xA, 0xB, 8⟩ := by decide +kernel
  have hnone : ∀ op : Opcode, ¬ op.Matches p.machine.word := by
    intro op hop
    obtain ⟨-, -, -, -, hdecode, -⟩ := hwords p.machine.word
    have hsome := (hdecode op).2 hop
    rw [hword] at hsome
    cases hsome
  constructor
  · have hresult := (hfault p rfl (by decide) (by decide) hnone).1 rfl
    rw [hword] at hresult
    exact hresult
  · obtain ⟨-, -, -, -, hdecode, -⟩ := hwords ⟨8, 0xA, 0xB, 4⟩
    exact (hdecode .add).1 rfl

end Processor

end ChipEight
