import Toolpath.Scanner

/-!
# What the scanner does at a place

The scanner looks at a line through the blanks in front of it. So each of its functions is said once in
terms of the first character that is no blank, and proofs about whole lines use nothing else of them.

* `numerals_of_goesOn`, `numerals_of_nil`, `numerals_of_stops`: a number goes on over blanks that begin with
  a space or a tab.
* `numberText_of_isSign`, `numberText_of_not_isSign`: the text behind an address letter.
* `item_of_isOpener`, `item_of_isAlpha`, `item_of_mark`: the item at a character; `wordToken_ofLetter`: what
  an address letter can become.
* `next?_of_nil`, `next?_of_cons`: the next item of a line.
-/

namespace Toolpath

/-! ## Characters -/

namespace Text

variable {s r : List Char} {c d : Char}

theorem isBlank_of_skipBlanks (h : skipBlanks s = c :: r) : isBlank c = false := by
  have hhead := List.head?_dropWhile_not isBlank s
  rw [← skipBlanks, h] at hhead
  simpa using hhead

theorem skipBlanks_append {gap : List Char} (hg : ∀ c ∈ gap, isBlank c = true) (s : List Char) :
    skipBlanks (gap ++ s) = skipBlanks s :=
  List.dropWhile_append_of_pos hg

theorem skipBlanks_of_isBlank (hc : isBlank c = true) : skipBlanks (c :: s) = skipBlanks s :=
  List.dropWhile_cons_of_pos hc

theorem skipBlanks_of_not_isBlank (hc : isBlank c = false) : skipBlanks (c :: s) = c :: s :=
  List.dropWhile_cons_of_neg (by simp [hc])

theorem toNat_of_isBlank (h : isBlank c = true) : c.toNat ≤ 32 ∨ 133 ≤ c.toNat := by
  simp [isBlank] at h
  omega

theorem isDigit_iff : c.isDigit = true ↔ 48 ≤ c.toNat ∧ c.toNat ≤ 57 :=
  Bool.and_eq_true_iff.trans (and_congr decide_eq_true_iff decide_eq_true_iff)

theorem isUpper_iff : c.isUpper = true ↔ 65 ≤ c.toNat ∧ c.toNat ≤ 90 :=
  decide_eq_true_iff

theorem isLower_iff : c.isLower = true ↔ 97 ≤ c.toNat ∧ c.toNat ≤ 122 :=
  Bool.and_eq_true_iff.trans (and_congr decide_eq_true_iff decide_eq_true_iff)

theorem isAlpha_iff :
    c.isAlpha = true ↔ 65 ≤ c.toNat ∧ c.toNat ≤ 90 ∨ 97 ≤ c.toNat ∧ c.toNat ≤ 122 :=
  Bool.or_eq_true_iff.trans (or_congr isUpper_iff isLower_iff)

/-- The codes of the two cases of a letter are 32 apart. -/
theorem toNat_toUpper (c : Char) :
    c.toUpper.toNat = if 97 ≤ c.toNat ∧ c.toNat ≤ 122 then c.toNat - 32 else c.toNat := by
  split
  · next h =>
    have hc : 'a'.val ≤ c.val ∧ c.val ≤ 'z'.val := h
    have hval : c.toUpper.val = c.val + ('A'.val - 'a'.val) := by
      delta Char.toUpper
      rw [dif_pos hc]
    have hshift : ('A'.val - 'a'.val).toNat = 2 ^ 32 - 32 := by decide
    have hnat := congrArg UInt32.toNat hval
    rw [UInt32.toNat_add, hshift, Char.toNat_val, Char.toNat_val] at hnat
    omega
  · next h => exact congrArg Char.toNat (dif_neg h)

theorem isAlpha_toUpper (c : Char) : c.toUpper.isAlpha = c.isAlpha := by
  rw [Bool.eq_iff_iff, isAlpha_iff, isAlpha_iff, toNat_toUpper]
  split <;> omega

theorem isUpper_toUpper (h : c.isAlpha = true) : c.toUpper.isUpper = true := by
  rw [isAlpha_iff] at h
  rw [isUpper_iff, toNat_toUpper]
  split <;> omega

theorem toUpper_of_not_isAlpha (h : c.isAlpha = false) : c.toUpper = c := by
  rw [← Bool.not_eq_true, isAlpha_iff] at h
  rw [← Char.toNat_inj, toNat_toUpper]
  split <;> omega

theorem toUpper_toUpper (c : Char) : c.toUpper.toUpper = c.toUpper := by
  rw [← Char.toNat_inj, toNat_toUpper c.toUpper, if_neg]
  rw [toNat_toUpper c]
  split <;> omega

/-- Only letters come in two cases. -/
theorem eq_of_toUpper_eq (h : c.toUpper = d.toUpper) (hc : c.isAlpha = false) : d = c := by
  have hd : d.isAlpha = false := by rw [← isAlpha_toUpper, ← h, isAlpha_toUpper, hc]
  rw [← toUpper_of_not_isAlpha hd, ← h, toUpper_of_not_isAlpha hc]

section Class

variable {p : Char → Bool} (hp : ∀ c, p c = true → c.isAlpha = false)
include hp

theorem not_class_of_isAlpha (h : c.isAlpha = true) : p c = false := by
  rw [← Bool.not_eq_true]
  intro hc
  rw [hp c hc] at h
  cases h

/-- A class of characters without letters does not see the case of letters. -/
theorem class_toUpper (c : Char) : p c.toUpper = p c := by
  cases hc : c.isAlpha with
  | false => rw [toUpper_of_not_isAlpha hc]
  | true =>
    rw [not_class_of_isAlpha hp hc, not_class_of_isAlpha hp ((isAlpha_toUpper c).trans hc)]

theorem class_of_toUpper_eq (h : c.toUpper = d.toUpper) : p c = p d := by
  rw [← class_toUpper hp c, h, class_toUpper hp d]

end Class

theorem not_isAlpha_of_isBlank (h : isBlank c = true) : c.isAlpha = false := by
  rw [← Bool.not_eq_true, isAlpha_iff]
  have := toNat_of_isBlank h
  omega

end Text

namespace Scanner

open Text

variable {s r : List Char} {c d : Char} {fresh : Bool} {column : Nat}

/-- The characters that begin a comment. -/
def isOpener (c : Char) : Bool := c = '(' || c = ';'

/-- The signs of a number. -/
def isSign (c : Char) : Bool := c = '+' || c = '-'

theorem not_isAlpha_of_isOpener (h : isOpener c = true) : c.isAlpha = false := by
  simp only [isOpener, Bool.or_eq_true, decide_eq_true_eq] at h
  rcases h with rfl | rfl <;> decide

theorem not_isNumeral_of_isOpener (h : isOpener c = true) : isNumeral c = false := by
  simp only [isOpener, Bool.or_eq_true, decide_eq_true_eq] at h
  rcases h with rfl | rfl <;> decide

theorem not_isSign_of_isOpener (h : isOpener c = true) : isSign c = false := by
  simp only [isOpener, Bool.or_eq_true, decide_eq_true_eq] at h
  rcases h with rfl | rfl <;> decide

theorem not_isAlpha_of_isSign (h : isSign c = true) : c.isAlpha = false := by
  simp only [isSign, Bool.or_eq_true, decide_eq_true_eq] at h
  rcases h with rfl | rfl <;> decide

theorem not_isNumeral_of_isSign (h : isSign c = true) : isNumeral c = false := by
  simp only [isSign, Bool.or_eq_true, decide_eq_true_eq] at h
  rcases h with rfl | rfl <;> decide

theorem not_isBlank_of_isSign (h : isSign c = true) : isBlank c = false := by
  simp only [isSign, Bool.or_eq_true, decide_eq_true_eq] at h
  rcases h with rfl | rfl <;> decide

theorem isNumeral_iff : isNumeral c = true ↔ 48 ≤ c.toNat ∧ c.toNat ≤ 57 ∨ c.toNat = 46 := by
  rw [isNumeral, Bool.or_eq_true_iff, isDigit_iff, decide_eq_true_iff, ← Char.toNat_inj]
  rfl

theorem not_isBlank_of_isNumeral (h : isNumeral c = true) : isBlank c = false := by
  rw [← Bool.not_eq_true]
  intro hb
  have := isNumeral_iff.mp h
  have := toNat_of_isBlank hb
  omega

theorem not_isAlpha_of_isNumeral (h : isNumeral c = true) : c.isAlpha = false := by
  rw [← Bool.not_eq_true, isAlpha_iff]
  have := isNumeral_iff.mp h
  omega

/-! ## Numbers -/

/-- The blanks that may begin a gap between the characters of a number. -/
def isSpace (c : Char) : Bool := c = ' ' || c = '\t'

theorem isBlank_of_isSpace (h : isSpace c = true) : isBlank c = true := by
  simp only [isSpace, Bool.or_eq_true, decide_eq_true_eq] at h
  rcases h with rfl | rfl <;> rfl

/-- Whether a number may go on at a place: there is no blank, or the first one is a space or a tab. -/
def goesOn : List Char → Bool
  | [] => true
  | c :: _ => !isBlank c || isSpace c

theorem goesOn_of_not_isBlank (h : isBlank c = false) : goesOn (c :: s) = true := by
  rw [goesOn, h, Bool.not_false, Bool.true_or]

theorem goesOn_of_isSpace (h : isSpace c = true) : goesOn (c :: s) = true := by
  rw [goesOn, h, Bool.or_true]

theorem numerals_of_goesOn (h : skipBlanks s = d :: r) (hd : isNumeral d = true)
    (hg : goesOn s = true) : numerals s = (d :: (numerals r).1, (numerals r).2) := by
  cases s with
  | nil => cases h
  | cons c s =>
    cases hc : isBlank c with
    | false =>
      rw [skipBlanks_of_not_isBlank hc] at h
      cases h
      rw [numerals, if_pos hd]
    | true =>
      rw [skipBlanks_of_isBlank hc] at h
      have hn : ¬ isNumeral c = true := fun hn => by
        rw [not_isBlank_of_isNumeral hn] at hc
        cases hc
      have hb : isSpace c = true := by simpa [goesOn, hc] using hg
      rw [isSpace] at hb
      rw [numerals, if_neg hn, if_pos hb]
      split
      · next hs =>
        rw [hs] at h
        cases h
      · next hs =>
        rw [hs] at h
        cases h
        rw [if_pos hd]

theorem numerals_of_nil (h : skipBlanks s = []) : numerals s = ([], s) := by
  fun_cases numerals s with
  | case2 c s hc =>
    rw [skipBlanks_of_not_isBlank (not_isBlank_of_isNumeral hc)] at h
    cases h
  | case4 c s hc hb d r hs =>
    rw [skipBlanks_of_isBlank (isBlank_of_isSpace hb), hs] at h
    cases h
  | _ => rfl

theorem numerals_of_stops (h : skipBlanks s = d :: r) (hd : (isNumeral d && goesOn s) = false) :
    numerals s = ([], s) := by
  fun_cases numerals s with
  | case2 c s hc =>
    have hb := not_isBlank_of_isNumeral hc
    rw [skipBlanks_of_not_isBlank hb] at h
    cases h
    rw [hc, goesOn_of_not_isBlank hb] at hd
    cases hd
  | case4 c s hc hb e u hs he =>
    rw [skipBlanks_of_isBlank (isBlank_of_isSpace hb), hs] at h
    cases h
    rw [he, goesOn_of_isSpace hb] at hd
    cases hd
  | _ => rfl

theorem numberText_of_nil (h : skipBlanks s = []) : numberText s = ([], []) := by
  rw [numberText, h]

theorem numberText_of_isSign (h : skipBlanks s = c :: r) (hc : isSign c = true) :
    numberText s = (c :: (numerals r).1, (numerals r).2) := by
  rw [numberText, h]
  exact if_pos hc

theorem numberText_of_not_isSign (h : skipBlanks s = c :: r) (hc : isSign c = false) :
    numberText s = numerals (c :: r) := by
  rw [numberText, h]
  exact if_neg (by simp only [isSign] at hc; simp [hc])

/-! ## Items -/

theorem item_of_isOpener (h : isOpener c = true) :
    item fresh column c s = (.comment (commentText c s), []) :=
  if_pos h

theorem item_of_isAlpha (h : c.isAlpha = true) :
    item fresh column c s = (wordToken c.toUpper column (numberText s).1, (numberText s).2) := by
  have hne : ∀ d : Char, d.isAlpha = false → c ≠ d := by
    rintro d hd rfl
    rw [h] at hd
    cases hd
  rw [item, if_neg, if_neg (hne '%' (by decide)), if_neg, if_pos h]
  · simp [hne '/' (by decide)]
  · simp [hne '(' (by decide), hne ';' (by decide)]

/-- All that can become of an address letter. -/
inductive OfLetter (letter : Char) (column : Nat) (text : List Char) : Token → Prop where
  | missing : OfLetter letter column text (.error (.missingValue column letter))
  | invalid : OfLetter letter column text (.error (.invalidNumber column letter (String.ofList text)))
  | number (n : Nat) : OfLetter letter column text (.blockNumber n)
  | word (value : Float) (hl : letter ≠ 'N') (hv : numberValue? text = some value) :
      OfLetter letter column text (.word letter value (String.ofList text) column)

theorem wordToken_ofLetter (letter : Char) (column : Nat) (text : List Char) :
    OfLetter letter column text (wordToken letter column text) := by
  unfold wordToken
  split
  · exact .missing
  · dsimp only
    split
    · exact .invalid
    · next value hv =>
      split
      · split
        · split
          · exact .number _
          · exact .invalid
        · exact .invalid
      · next hl => exact .word value hl hv

/-- The item of a character that stands alone. -/
def markToken (fresh : Bool) (column : Nat) (c : Char) : Token :=
  if c = '%' then .programMarker
  else if c = '/' && fresh then .blockDelete
  else .error (.unexpectedCharacter column c)

theorem item_of_mark (ho : isOpener c = false) (ha : c.isAlpha = false) :
    item fresh column c s = (markToken fresh column c, s) := by
  simp only [isOpener] at ho
  unfold item markToken
  rw [ho, ha]
  split
  · contradiction
  · split
    · rfl
    · split <;> rfl

/-! ## Lines -/

variable {t t' : Scanner} {token : Token}

/-- The scanner at the first character that is no blank. -/
def start (t : Scanner) : Scanner := t.moveTo (skipBlanks t.rest)

theorem next?_of_nil (h : skipBlanks t.rest = []) : t.next? = none := by
  simp only [next?, moveTo, h]

theorem next?_of_cons (h : skipBlanks t.rest = c :: r) :
    t.next? = some ((item t.fresh t.start.column c r).1,
      { t.start.moveTo (item t.fresh t.start.column c r).2 with fresh := false }) := by
  simp only [next?, start, moveTo, h]

theorem toList_of_none (h : t.next? = none) : t.toList = [] := by
  rw [toList]
  split
  · rfl
  · next h' =>
    rw [h] at h'
    cases h'

theorem toList_of_some (h : t.next? = some (token, t')) : t.toList = token :: t'.toList := by
  rw [toList]
  split
  · next h' =>
    rw [h] at h'
    cases h'
  · next h' =>
    rw [h] at h'
    cases h'
    rfl

/-- What holds of every item that the scanner can come to holds of all items of a line. -/
theorem forall_mem_toList {P : Token → Prop}
    (h : ∀ (s t : Scanner) (token : Token), s.next? = some (token, t) → P token) (t : Scanner) :
    ∀ token ∈ t.toList, P token := by
  fun_induction toList t with
  | case1 t ht => exact fun token hm => absurd hm List.not_mem_nil
  | case2 t first t' ht ih => exact List.forall_mem_cons.mpr ⟨h t t' first ht, ih⟩

end Scanner

end Toolpath
