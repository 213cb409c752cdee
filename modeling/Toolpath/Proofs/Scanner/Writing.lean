import Toolpath.Proofs.Scanner.Steps

/-!
# Writing words

Words can be packed, or spaces and tabs can stand before any of their characters, those of a number too.
The scanner gives back the words that were written, and no others: the text of every word that it finds
is that of a number.

* `IsNumber`: the texts that are numbers; `numberValue?_eq_some_iff`: these, if finite, are read by the
  scanner.
* `numerals_spread`, `numberText_spread`: reading over the blanks in a number.
* `WrittenWord`: a word as it can stand on a line, with spaces and tabs before each of its characters.
* `tokens_written`: scanning a line of written words gives them back, and every word of any line is one
  that can be written.
-/

namespace Toolpath

open Text Number

namespace Scanner

/-! ## Numbers -/

/-- Digits with at most one point among or around them, and at least one digit. -/
structure IsUnsigned (s : List Char) : Prop where
  numerals : ∀ c ∈ s, isNumeral c = true
  points : s.count '.' ≤ 1
  digit : ∃ c ∈ s, c.isDigit = true

/-- The text of a number: a sign or none, and digits with at most one point. -/
inductive IsNumber : List Char → Prop where
  | unsigned {s : List Char} (h : IsUnsigned s) : IsNumber s
  | signed {c : Char} {s : List Char} (hc : isSign c = true) (h : IsUnsigned s) : IsNumber (c :: s)

theorem isNumeral_of_isDigit {c : Char} (h : c.isDigit = true) : isNumeral c = true := by
  rw [isNumeral, h, Bool.true_or]

theorem count_point_of_digits {s : List Char} (h : ∀ c ∈ s, c.isDigit = true) : s.count '.' = 0 :=
  List.count_eq_zero.mpr fun hp => absurd (h _ hp) (by decide)

theorem isUnsigned_digits {s : List Char} (h : ∀ c ∈ s, c.isDigit = true) : IsUnsigned s ↔ s ≠ [] := by
  constructor
  · rintro ⟨-, -, c, hc, -⟩ rfl
    cases hc
  · intro hne
    obtain ⟨c, r, rfl⟩ := List.exists_cons_of_ne_nil hne
    refine ⟨fun d hd => isNumeral_of_isDigit (h d hd), ?_, c, List.mem_cons_self, h c List.mem_cons_self⟩
    rw [count_point_of_digits h]
    exact Nat.zero_le 1

theorem isUnsigned_append {whole fraction : List Char} {c : Char}
    (hw : ∀ c ∈ whole, c.isDigit = true) (hc : c.isDigit = false) :
    IsUnsigned (whole ++ c :: fraction) ↔
      c = '.' ∧ (∀ c ∈ fraction, c.isDigit = true) ∧ ¬ (whole = [] ∧ fraction = []) := by
  constructor
  · rintro ⟨hnum, hpoints, d, hd, hdigit⟩
    have hpoint : c = '.' := by simpa [isNumeral, hc] using hnum c (by simp)
    subst hpoint
    rw [List.count_append, List.count_cons_self] at hpoints
    refine ⟨rfl, fun e he => ?_, ?_⟩
    · have hne : e ≠ '.' := by
        rintro rfl
        have := List.count_pos_iff.mpr he
        omega
      simpa [isNumeral, hne] using hnum e (by simp [he])
    · rintro ⟨rfl, rfl⟩
      cases List.mem_singleton.mp hd
      rw [hc] at hdigit
      cases hdigit
  · rintro ⟨rfl, hf, hne⟩
    refine ⟨?_, ?_, ?_⟩
    · intro d hd
      rcases List.mem_append.mp hd with hd | hd
      · exact isNumeral_of_isDigit (hw d hd)
      · rcases List.mem_cons.mp hd with rfl | hd
        · rfl
        · exact isNumeral_of_isDigit (hf d hd)
    · refine Nat.le_of_eq ?_
      rw [List.count_append, List.count_cons_self, count_point_of_digits hw, count_point_of_digits hf]
    · cases whole with
      | cons d whole => exact ⟨d, by simp, hw d List.mem_cons_self⟩
      | nil =>
        cases fraction with
        | nil => exact absurd ⟨rfl, rfl⟩ hne
        | cons d fraction => exact ⟨d, by simp, hf d List.mem_cons_self⟩

/-- What can be read as a decimal. -/
theorem isUnsigned_iff (s : List Char) : IsUnsigned s ↔ (decimal? s).isSome = true := by
  have hs := List.takeWhile_append_dropWhile (p := Char.isDigit) (l := s)
  have hw : ∀ c ∈ s.takeWhile Char.isDigit, c.isDigit = true := List.all_eq_true.mp List.all_takeWhile
  have hhead := List.head?_dropWhile_not Char.isDigit s
  unfold decimal?
  dsimp only
  generalize s.takeWhile Char.isDigit = whole at hs hw
  generalize s.dropWhile Char.isDigit = rest at hs hhead
  subst hs
  cases rest with
  | nil =>
    rw [List.append_nil, isUnsigned_digits hw]
    cases whole <;> simp
  | cons c fraction =>
    rw [isUnsigned_append hw (by simpa using hhead)]
    simp only [Option.isSome_ite, Bool.and_eq_true, decide_eq_true_eq, List.all_eq_true,
      Bool.not_eq_true', ← Bool.not_eq_true, List.isEmpty_iff, and_assoc]

/-! ## Values -/

theorem splitSign_of_isSign {c : Char} (hc : isSign c = true) (s : List Char) :
    splitSign (c :: s) = (decide (c = '-'), s) := by
  simp only [isSign, Bool.or_eq_true, decide_eq_true_eq] at hc
  rcases hc with rfl | rfl <;> rfl

theorem splitSign_of_not_isSign {c : Char} (hc : isSign c = false) (s : List Char) :
    splitSign (c :: s) = (false, c :: s) := by
  unfold splitSign
  split
  · next h =>
    cases h
    cases hc
  · next h =>
    cases h
    cases hc
  · rfl

theorem isNumber_iff (s : List Char) : IsNumber s ↔ IsUnsigned (splitSign s).2 := by
  cases s with
  | nil =>
    constructor
    · rintro ⟨h⟩
      exact h
    · exact .unsigned
  | cons c s =>
    cases hc : isSign c with
    | true =>
      rw [splitSign_of_isSign hc]
      constructor
      · rintro (h | ⟨-, h⟩)
        · have hn := h.numerals c List.mem_cons_self
          rw [not_isNumeral_of_isSign hc] at hn
          cases hn
        · exact h
      · exact .signed hc
    | false =>
      rw [splitSign_of_not_isSign hc]
      constructor
      · rintro (h | ⟨h, -⟩)
        · exact h
        · rw [hc] at h
          cases h
      · exact .unsigned

theorem toLower_of_isDigit {c : Char} (h : c.isDigit = true) : c.toLower = c := by
  obtain ⟨-, hle⟩ := isDigit_iff.mp h
  refine dif_neg fun hupper => ?_
  have hle' : 65 ≤ c.toNat := hupper.1
  omega

/-- Digits and points are read as a decimal: they are none of the words for an infinity or for no number,
and have no exponent. -/
theorem magnitude?_of_isUnsigned {s : List Char} (h : IsUnsigned s) :
    magnitude? s = (decimal? s).map ofDecimal := by
  obtain ⟨d, hd, hdigit⟩ := h.digit
  have hword : ∀ word : String, word.toList.any Char.isDigit = false →
      String.ofList (s.map Char.toLower) ≠ word := by
    rintro _ hno rfl
    have hmem : d ∈ s.map Char.toLower := List.mem_map.mpr ⟨d, hd, toLower_of_isDigit hdigit⟩
    rw [String.toList_ofList, List.any_eq_false] at hno
    exact hno d hmem hdigit
  have hmark : ∀ c ∈ s, (!(decide (c = 'e') || decide (c = 'E'))) = true := by
    intro c hc
    have hn := h.numerals c hc
    have hne : ∀ mark : Char, isNumeral mark = false → c ≠ mark := by
      rintro _ hm rfl
      rw [hm] at hn
      cases hn
    simp [hne 'e' (by decide), hne 'E' (by decide)]
  have htake : (s ++ []).takeWhile _ = s ++ [] := List.takeWhile_append_of_pos hmark
  have hdrop : (s ++ []).dropWhile _ = [] := List.dropWhile_append_of_pos hmark
  rw [List.append_nil] at htake hdrop
  unfold magnitude?
  split
  · next hs => exact absurd hs (hword _ rfl)
  · next hs => exact absurd hs (hword _ rfl)
  · next hs => exact absurd hs (hword _ rfl)
  · dsimp only
    rw [htake, hdrop]

theorem numberValue?_eq (s : List Char) :
    numberValue? s =
      ((decimal? (splitSign s).2).map fun d => signed (splitSign s).1 (ofDecimal d)).filter Float.isFinite := by
  unfold numberValue?
  dsimp only
  cases decimal? (splitSign s).2 with
  | none => rfl
  | some d =>
    rw [Option.map_some, Option.filter_some]

theorem float?_of_isNumber {s : List Char} (h : IsNumber s) :
    float? (String.ofList s) = (decimal? (splitSign s).2).map fun d => signed (splitSign s).1 (ofDecimal d) := by
  unfold float?
  rw [String.toList_ofList]
  dsimp only
  rw [magnitude?_of_isUnsigned ((isNumber_iff s).mp h), Option.map_map]
  rfl

/-- The scanner reads exactly the texts of numbers whose double is finite. -/
theorem numberValue?_eq_some_iff (s : List Char) (value : Float) :
    numberValue? s = some value ↔
      IsNumber s ∧ float? (String.ofList s) = some value ∧ value.isFinite = true := by
  rw [numberValue?_eq, Option.filter_eq_some_iff]
  constructor
  · rintro ⟨hread, hfinite⟩
    have hnumber : IsNumber s := by
      rw [isNumber_iff, isUnsigned_iff]
      obtain ⟨d, hd, -⟩ := Option.map_eq_some_iff.mp hread
      rw [hd]
      rfl
    exact ⟨hnumber, by rw [float?_of_isNumber hnumber, hread], hfinite⟩
  · rintro ⟨hnumber, hread, hfinite⟩
    exact ⟨by rw [← float?_of_isNumber hnumber, hread], hfinite⟩

/-- Every text of a number has a value, which may be too large to be finite. -/
theorem exists_float?_of_isNumber {s : List Char} (h : IsNumber s) :
    ∃ value, float? (String.ofList s) = some value := by
  obtain ⟨d, hd⟩ := Option.isSome_iff_exists.mp ((isUnsigned_iff _).mp ((isNumber_iff s).mp h))
  rw [float?_of_isNumber h, hd]
  exact ⟨_, rfl⟩

/-! ## Words -/

theorem skipBlanks_of_isSpace {gap s : List Char} {c : Char} (hg : ∀ c ∈ gap, isSpace c = true)
    (hc : isBlank c = false) : skipBlanks (gap ++ c :: s) = c :: s := by
  rw [skipBlanks_append fun d hd => isBlank_of_isSpace (hg d hd), skipBlanks_of_not_isBlank hc]

theorem goesOn_of_forall_isSpace {gap s : List Char} {c : Char} (hg : ∀ c ∈ gap, isSpace c = true)
    (hc : isBlank c = false) : goesOn (gap ++ c :: s) = true := by
  cases gap with
  | nil => exact goesOn_of_not_isBlank hc
  | cons b gap => exact goesOn_of_isSpace (hg b List.mem_cons_self)

/-- Characters, each with the blanks before it. -/
def spread (s : List (List Char × Char)) : List Char := s.flatMap fun p => p.1 ++ [p.2]

theorem spread_cons (p : List Char × Char) (s : List (List Char × Char)) (rest : List Char) :
    spread (p :: s) ++ rest = p.1 ++ p.2 :: (spread s ++ rest) := by
  simp [spread]

/-- Spaces and tabs before every character. -/
def IsSpread (s : List (List Char × Char)) : Prop := ∀ p ∈ s, ∀ c ∈ p.1, isSpace c = true

theorem numerals_spread {s : List (List Char × Char)} {rest : List Char} (hs : IsSpread s)
    (hn : ∀ c ∈ s.map Prod.snd, isNumeral c = true) (hr : numerals rest = ([], rest)) :
    numerals (spread s ++ rest) = (s.map Prod.snd, rest) := by
  induction s with
  | nil => exact hr
  | cons p s ih =>
    obtain ⟨hp, hs⟩ := List.forall_mem_cons.mp hs
    obtain ⟨hpn, hn⟩ := List.forall_mem_cons.mp hn
    have hb := not_isBlank_of_isNumeral hpn
    rw [spread_cons, numerals_of_goesOn (skipBlanks_of_isSpace hp hb) hpn
      (goesOn_of_forall_isSpace hp hb), ih hs hn]
    rfl

theorem numberText_spread {s : List (List Char × Char)} {rest : List Char} (hs : IsSpread s)
    (hn : IsNumber (s.map Prod.snd)) (hr : numerals rest = ([], rest)) :
    numberText (spread s ++ rest) = (s.map Prod.snd, rest) := by
  rw [isNumber_iff] at hn
  cases s with
  | nil =>
    obtain ⟨c, hc, -⟩ := hn.digit
    cases hc
  | cons p s =>
    obtain ⟨hp, hs⟩ := List.forall_mem_cons.mp hs
    rw [spread_cons]
    rw [List.map_cons] at hn ⊢
    cases hc : isSign p.2 with
    | true =>
      rw [splitSign_of_isSign hc] at hn
      rw [numberText_of_isSign (skipBlanks_of_isSpace hp (not_isBlank_of_isSign hc)) hc,
        numerals_spread hs hn.numerals hr]
    | false =>
      rw [splitSign_of_not_isSign hc] at hn
      obtain ⟨hpn, hn⟩ := List.forall_mem_cons.mp hn.numerals
      have hb := not_isBlank_of_isNumeral hpn
      rw [numberText_of_not_isSign (skipBlanks_of_isSpace hp hb) hc,
        numerals_of_goesOn (skipBlanks_of_not_isBlank hb) hpn (goesOn_of_not_isBlank hb),
        numerals_spread hs hn hr]

theorem wordToken_of_isNumber {letter : Char} {text : List Char} {value : Float} (hl : letter ≠ 'N')
    (hn : IsNumber text) (hv : float? (String.ofList text) = some value) (hf : value.isFinite = true)
    (column : Nat) :
    wordToken letter column text = .word letter value (String.ofList text) column := by
  have hdigit : ∃ c ∈ text, c.isDigit = true := by
    cases hn with
    | unsigned h => exact h.digit
    | signed _ h =>
      obtain ⟨c, hc, hd⟩ := h.digit
      exact ⟨c, List.mem_cons_of_mem _ hc, hd⟩
  have hne : ∀ sign : List Char, sign.any Char.isDigit = false → text ≠ sign := by
    rintro _ hno rfl
    obtain ⟨c, hc, hd⟩ := hdigit
    exact List.any_eq_false.mp hno c hc hd
  have hvalue := (numberValue?_eq_some_iff text value).mpr ⟨hn, hv, hf⟩
  unfold wordToken
  rw [if_neg]
  · simp only [hvalue, if_neg hl]
  · simp [hne [] rfl, hne ['+'] rfl, hne ['-'] rfl]

end Scanner

open Scanner

/-- A word as it is written on a line: its letter in either case, and spaces and tabs before each of its
characters. It does not number the block, and its number is finite. -/
structure WrittenWord where
  gap : List Char
  letter : Char
  /-- The characters of the number, each with the blanks before it. -/
  number : List (List Char × Char)
  value : Float
  gap_isSpace : ∀ c ∈ gap, isSpace c = true
  letter_isAlpha : letter.isAlpha = true
  letter_ne : letter.toUpper ≠ 'N'
  number_isSpread : IsSpread number
  number_isNumber : IsNumber (number.map Prod.snd)
  value_read : float? (String.ofList (number.map Prod.snd)) = some value
  value_isFinite : value.isFinite = true

namespace WrittenWord

/-- The text of the number without blanks. -/
def raw (w : WrittenWord) : List Char := w.number.map Prod.snd

def text (w : WrittenWord) : List Char := w.gap ++ w.letter :: spread w.number

/-- The item of a word whose text begins at a column. -/
def token (w : WrittenWord) (column : Nat) : Token :=
  .word w.letter.toUpper w.value (String.ofList w.raw) (column + w.gap.length)

/-- The items of words that are written one after the other from a column on. -/
def tokensFrom (column : Nat) : List WrittenWord → List Token
  | [] => []
  | w :: words => w.token column :: tokensFrom (column + w.text.length) words

theorem skipBlanks_text (w : WrittenWord) (rest : List Char) :
    skipBlanks (w.text ++ rest) = w.letter :: (spread w.number ++ rest) := by
  rw [text, List.append_assoc, List.cons_append]
  exact skipBlanks_of_isSpace w.gap_isSpace
    (not_class_of_isAlpha (fun _ => not_isAlpha_of_isBlank) w.letter_isAlpha)

theorem length_text (w : WrittenWord) : w.text.length = w.gap.length + ((spread w.number).length + 1) := by
  rw [text, List.length_append, List.length_cons]

/-- The scanner at the letter of a word. -/
theorem start_text (w : WrittenWord) (rest : List Char) (column : Nat) (fresh : Bool) :
    start ⟨w.text ++ rest, column, fresh⟩ =
      ⟨w.letter :: (spread w.number ++ rest), column + w.gap.length, fresh⟩ := by
  have hlength : (w.text ++ rest).length - (w.letter :: (spread w.number ++ rest)).length =
      w.gap.length := by
    rw [List.length_append, length_text, List.length_cons, List.length_append]
    omega
  simp only [start, moveTo, skipBlanks_text, hlength]

theorem skipBlanks_tail {tail : List Char} (ht : ∀ c ∈ tail, isSpace c = true) : skipBlanks tail = [] := by
  have h := skipBlanks_append (fun c hc => isBlank_of_isSpace (ht c hc)) []
  rwa [List.append_nil] at h

/-- A number ends before the next word and at the end of the line. -/
theorem numerals_words (words : List WrittenWord) {tail : List Char} (ht : ∀ c ∈ tail, isSpace c = true) :
    numerals (words.flatMap text ++ tail) = ([], words.flatMap text ++ tail) := by
  cases words with
  | nil => exact numerals_of_nil (skipBlanks_tail ht)
  | cons w words =>
    rw [List.flatMap_cons, List.append_assoc]
    refine numerals_of_stops (w.skipBlanks_text _) ?_
    rw [not_class_of_isAlpha (fun _ => not_isAlpha_of_isNumeral) w.letter_isAlpha, Bool.false_and]

/-- **One word.** -/
theorem next?_text (w : WrittenWord) {rest : List Char} (hr : numerals rest = ([], rest)) (column : Nat)
    (fresh : Bool) :
    next? ⟨w.text ++ rest, column, fresh⟩ =
      some (w.token column, ⟨rest, column + w.text.length, false⟩) := by
  have hlength : (w.letter :: (spread w.number ++ rest)).length - rest.length =
      (spread w.number).length + 1 := by
    rw [List.length_cons, List.length_append]
    omega
  rw [next?_of_cons (w.skipBlanks_text rest), start_text, item_of_isAlpha w.letter_isAlpha,
    numberText_spread w.number_isSpread w.number_isNumber hr,
    wordToken_of_isNumber w.letter_ne w.number_isNumber w.value_read w.value_isFinite]
  simp only [moveTo, hlength, length_text, Nat.add_assoc]
  rfl

/-- **All words.** -/
theorem toList_words (words : List WrittenWord) {tail : List Char} (ht : ∀ c ∈ tail, isSpace c = true)
    (column : Nat) (fresh : Bool) :
    toList ⟨words.flatMap text ++ tail, column, fresh⟩ = tokensFrom column words := by
  induction words generalizing column fresh with
  | nil => exact toList_of_none (next?_of_nil (skipBlanks_tail ht))
  | cons w words ih =>
    rw [List.flatMap_cons, List.append_assoc,
      toList_of_some (w.next?_text (numerals_words words ht) column fresh), ih, tokensFrom]

end WrittenWord

/-! ## Lines -/

/-- A word that can be written: a letter in upper case that numbers no block, and the text of a finite
number with its value. -/
structure Token.IsWord (letter : Char) (value : Float) (raw : String) : Prop where
  letter_isUpper : letter.isUpper = true
  letter_ne : letter ≠ 'N'
  raw_isNumber : IsNumber raw.toList
  value_read : float? raw = some value
  value_isFinite : value.isFinite = true

/-- What an item says if it is a word. -/
def Token.Writable : Token → Prop
  | .word letter value raw _ => IsWord letter value raw
  | _ => True

theorem Scanner.item_writable (fresh : Bool) (column : Nat) (c : Char) (s : List Char) :
    (item fresh column c s).1.Writable := by
  cases ho : isOpener c with
  | true =>
    rw [item_of_isOpener ho]
    trivial
  | false =>
    cases ha : c.isAlpha with
    | true =>
      rw [item_of_isAlpha ha]
      have hletter := wordToken_ofLetter c.toUpper column (numberText s).1
      generalize wordToken c.toUpper column (numberText s).1 = token at hletter
      cases hletter with
      | word value hl hv =>
        obtain ⟨hnumber, hread, hfinite⟩ := (numberValue?_eq_some_iff _ _).mp hv
        exact
          { letter_isUpper := isUpper_toUpper ha
            letter_ne := hl
            raw_isNumber := by rwa [String.toList_ofList]
            value_read := hread
            value_isFinite := hfinite }
      | _ => trivial
    | false =>
      rw [item_of_mark ho ha]
      unfold markToken
      split
      · trivial
      · split <;> trivial

theorem tokens_writable (line : String) : ∀ token ∈ tokens line, token.Writable := by
  refine forall_mem_toList (fun s t token h => ?_) _
  cases hs : skipBlanks s.rest with
  | nil =>
    rw [next?_of_nil hs] at h
    cases h
  | cons c r =>
    rw [next?_of_cons hs] at h
    cases h
    exact item_writable _ _ _ _

/-- **Scanning undoes writing.** Words that are written one after the other, with spaces and tabs before
each of their characters and at the end of the line, are the items of the line. Conversely every word of
a line could have been written so: its text is that of a number. Every such text has a value. -/
theorem tokens_written :
    (∀ (words : List WrittenWord) (tail : List Char), (∀ c ∈ tail, isSpace c = true) →
      tokens (String.ofList (words.flatMap WrittenWord.text ++ tail)) = WrittenWord.tokensFrom 0 words) ∧
    (∀ (line : String) (letter : Char) (value : Float) (raw : String) (column : Nat),
      .word letter value raw column ∈ tokens line → Token.IsWord letter value raw) ∧
    ∀ text, IsNumber text → ∃ value, float? (String.ofList text) = some value := by
  refine ⟨fun words tail ht => ?_, fun line letter value raw column h => ?_,
    fun _ => exists_float?_of_isNumber⟩
  · rw [tokens, ofLine, String.toList_ofList]
    exact WrittenWord.toList_words words ht 0 true
  · exact tokens_writable line _ h

/-- Two words, the second with blanks around its sign and its point. -/
theorem tokens_spread_words :
    (∀ c ∈ [' '], isSpace c = true) ∧
      tokens "g1 x\t- 1 .5 " = [.word 'G' 1 "1" 0, .word 'X' (-1.5) "-1.5" 3] := by
  have htail : ∀ c ∈ [' '], isSpace c = true := List.all_eq_true.mp rfl
  let code : WrittenWord :=
    { gap := [], letter := 'g', number := [([], '1')], value := 1
      gap_isSpace := List.all_eq_true.mp rfl
      letter_isAlpha := by decide
      letter_ne := by decide
      number_isSpread := by simp [IsSpread, isSpace]
      number_isNumber := .unsigned ⟨List.all_eq_true.mp rfl, by decide, '1', by decide, rfl⟩
      value_read := by decide +kernel
      value_isFinite := by decide +kernel }
  let axis : WrittenWord :=
    { gap := [' '], letter := 'x', number := [(['\t'], '-'), ([' '], '1'), ([' '], '.'), ([], '5')]
      value := -1.5
      gap_isSpace := List.all_eq_true.mp rfl
      letter_isAlpha := by decide
      letter_ne := by decide
      number_isSpread := by simp [IsSpread, isSpace]
      number_isNumber := .signed (by decide) ⟨List.all_eq_true.mp rfl, by decide, '1', by decide, rfl⟩
      value_read := by decide +kernel
      value_isFinite := by decide +kernel }
  have hline : "g1 x\t- 1 .5 " = String.ofList ([code, axis].flatMap WrittenWord.text ++ [' ']) := by decide
  refine ⟨htail, ?_⟩
  rw [hline, tokens_written.1 [code, axis] [' '] htail]
  simp only [WrittenWord.tokensFrom, WrittenWord.token, WrittenWord.raw, code, axis]
  decide +kernel

end Toolpath
