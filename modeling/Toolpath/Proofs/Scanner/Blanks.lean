import Toolpath.Proofs.Scanner.Spelling

/-!
# Where blanks matter

Blanks outside of comments, and the case of letters, do not change the tokens of a line, with one
exception in `number_text`: a gap in a number that does not begin with a space or a tab cuts the number.
What it cuts off is then an item of its own, a stray digit or point behind a word, so the items tell
that a number was cut.

* `hasStray`: whether a stray digit or point follows a word.
* `any_cuts_numerals`, `any_cuts_numberText`, `any_cuts_next?`, `hasStray_toList`: it does exactly if a
  number is cut.
* `not_mem_cuts_of_isSpace`: spaces and tabs cut no number.
* `tokens_of_squeeze_eq`: when two lines have the same items. `noBreakSpace_cuts`: two that do not.
-/

namespace Toolpath

open Text

/-! ## Stray digits -/

/-- Whether an item is that of an address letter. -/
def Token.isOfLetter : Token → Bool
  | .word _ _ _ _ | .blockNumber _ | .error (.missingValue _ _) | .error (.invalidNumber _ _ _) => true
  | _ => false

/-- Whether an item is a digit or a point that belongs to no word. -/
def Token.isStray : Token → Bool
  | .error (.unexpectedCharacter _ c) => Scanner.isNumeral c
  | _ => false

namespace Scanner

/-- Whether a digit or a point is the first thing behind a word. -/
def hasStray : List Token → Bool
  | [] => false
  | a :: rest => (a.isOfLetter && rest.head?.any Token.isStray) || hasStray rest

variable {s r : List Char} {c : Char}

/-- Whether the first character of a line that is no blank is a digit or a point. -/
def startsNumeral (s : List Char) : Bool := (skipBlanks s).head?.any isNumeral

theorem startsNumeral_of_cons (h : skipBlanks s = c :: r) : startsNumeral s = isNumeral c := by
  rw [startsNumeral, h]
  rfl

theorem wordToken_isOfLetter (letter : Char) (column : Nat) (text : List Char) :
    (wordToken letter column text).isOfLetter = true ∧ (wordToken letter column text).isStray = false := by
  have h := wordToken_ofLetter letter column text
  generalize wordToken letter column text = token at h
  cases h <;> exact ⟨rfl, rfl⟩

theorem markToken_isStray (fresh : Bool) (column : Nat) (c : Char) :
    (markToken fresh column c).isOfLetter = false ∧
      (markToken fresh column c).isStray = isNumeral c := by
  unfold markToken
  split
  · next h => subst h; exact ⟨rfl, rfl⟩
  · split
    · next h =>
      obtain ⟨h, -⟩ := Bool.and_eq_true_iff.mp h
      rw [of_decide_eq_true h]
      exact ⟨rfl, rfl⟩
    · exact ⟨rfl, rfl⟩

theorem item_isStray (fresh : Bool) (column : Nat) (c : Char) (s : List Char) :
    (item fresh column c s).1.isStray = isNumeral c := by
  cases ho : isOpener c with
  | true =>
    rw [item_of_isOpener ho, not_isNumeral_of_isOpener ho]
    rfl
  | false =>
    cases ha : c.isAlpha with
    | true =>
      rw [item_of_isAlpha ha, (wordToken_isOfLetter _ _ _).2,
        not_class_of_isAlpha (fun _ => not_isAlpha_of_isNumeral) ha]
    | false => rw [item_of_mark ho ha, (markToken_isStray _ _ _).2]

/-- A digit or a point that the scanner comes to is a stray one. -/
theorem head?_isStray (t : Scanner) : t.toList.head?.any Token.isStray = startsNumeral t.rest := by
  cases h : skipBlanks t.rest with
  | nil =>
    rw [toList_of_none (next?_of_nil h), startsNumeral, h]
    rfl
  | cons c r =>
    rw [toList_of_some (next?_of_cons h), startsNumeral_of_cons h, List.head?_cons, Option.any_some,
      item_isStray]

/-- Where a number ends, what follows it is cut off if it is a digit or a point. -/
theorem any_cuts_of_stops (h : skipBlanks s = c :: r) (hc : isOpener c = false)
    (hstop : (isNumeral c && goesOn s) = false) :
    (cutsFrom .number none s).any id =
      (startsNumeral s || (cutsFrom .outside none s).any id) := by
  have hcut : isCut .number s c = isNumeral c := by
    have hbool : ∀ n a : Bool, (n && a) = false → (n && !a) = n := by decide
    rw [isCut_number]
    exact hbool _ _ hstop
  have hout : isCut .outside s c = false := rfl
  rw [cutsFrom_of_code h hc, cutsFrom_of_code h hc, startsNumeral_of_cons h, hout, hcut,
    Place.next_of_stops (by rw [Bool.and_not_self])]
  rfl

theorem any_cuts_numerals (s : List Char) :
    (cutsFrom .number none s).any id =
      (startsNumeral (numerals s).2 || (cutsFrom .outside none (numerals s).2).any id) := by
  induction hn : s.length using Nat.strongRecOn generalizing s with
  | ind n ih =>
  cases h : skipBlanks s with
  | nil =>
    rw [numerals_of_nil h, cutsFrom_eq, cutsFrom_eq, startsNumeral, h]
    rfl
  | cons c r =>
    cases hc : isOpener c with
    | true =>
      have hnum := not_isNumeral_of_isOpener hc
      rw [numerals_of_stops h (by rw [hnum]; rfl), cutsFrom_of_comment h hc, cutsFrom_of_comment h hc,
        startsNumeral_of_cons h, hnum]
      rfl
    | false =>
      cases hgo : isNumeral c && goesOn s with
      | false => rw [numerals_of_stops h hgo, any_cuts_of_stops h hc hgo]
      | true =>
        obtain ⟨hcn, hgs⟩ := Bool.and_eq_true_iff.mp hgo
        have hcut : isCut .number s c = false := by rw [isCut_number, hgs, Bool.not_true, Bool.and_false]
        have hlt : r.length < n := by
          have := skipBlanks_length_le s
          rw [h, List.length_cons] at this
          omega
        rw [numerals_of_goesOn h hcn hgs, cutsFrom_of_code h hc, hcut, Place.next_of_isNumeral hcn,
          List.any_cons, ih r.length hlt r rfl]
        rfl

theorem any_cuts_numberText (s : List Char) :
    (cutsFrom .letter none s).any id =
      (startsNumeral (numberText s).2 || (cutsFrom .outside none (numberText s).2).any id) := by
  cases h : skipBlanks s with
  | nil =>
    rw [numberText_of_nil h, cutsFrom_eq, h]
    rfl
  | cons c r =>
    have hcr := skipBlanks_of_not_isBlank (s := r) (isBlank_of_skipBlanks h)
    cases hc : isOpener c with
    | true =>
      have hnum := not_isNumeral_of_isOpener hc
      rw [numberText_of_not_isSign h (not_isSign_of_isOpener hc), numerals_of_stops hcr (by rw [hnum]; rfl),
        cutsFrom_of_comment h hc, cutsFrom_of_comment hcr hc, startsNumeral_of_cons hcr, hnum]
      rfl
    | false =>
      have hcut : isCut .letter s c = false := rfl
      rw [cutsFrom_of_code h hc, hcut, List.any_cons, id, Bool.false_or]
      cases hs : isSign c with
      | true =>
        rw [numberText_of_isSign h hs, Place.next_of_sign (by rw [hs]; rfl), any_cuts_numerals]
      | false =>
        rw [numberText_of_not_isSign h hs]
        cases hn : isNumeral c with
        | true =>
          rw [numerals_of_goesOn hcr hn (goesOn_of_not_isBlank (isBlank_of_skipBlanks h)),
            Place.next_of_sign (by rw [hn, Bool.or_true]), any_cuts_numerals]
        | false =>
          rw [numerals_of_stops hcr (by rw [hn]; rfl), Place.next_of_other (by rw [hs, hn]; rfl),
            startsNumeral_of_cons hcr, hn, cutsFrom_of_code hcr hc]
          rfl

/-- **One item.** -/
theorem any_cuts_next? {t t' : Scanner} {token : Token} (h : t.next? = some (token, t')) :
    (cutsFrom .outside none t.rest).any id =
      (token.isOfLetter && startsNumeral t'.rest || (cutsFrom .outside none t'.rest).any id) := by
  cases hs : skipBlanks t.rest with
  | nil =>
    rw [next?_of_nil hs] at h
    cases h
  | cons c r =>
    rw [next?_of_cons hs] at h
    cases hc : isOpener c with
    | true =>
      rw [item_of_isOpener hc] at h
      cases h
      rw [cutsFrom_of_comment hs hc]
      rfl
    | false =>
      have hcut : isCut .outside t.rest c = false := rfl
      rw [cutsFrom_of_code hs hc, hcut, List.any_cons, id, Bool.false_or]
      unfold Place.next
      cases ha : c.isAlpha with
      | true =>
        rw [item_of_isAlpha ha] at h
        cases h
        rw [(wordToken_isOfLetter _ _ _).1, Bool.true_and, if_pos rfl]
        exact any_cuts_numberText r
      | false =>
        rw [item_of_mark hc ha] at h
        cases h
        rw [(markToken_isStray _ _ _).1]
        rfl

/-- **All items.** A number is cut exactly if a stray digit or point follows a word. -/
theorem hasStray_toList (t : Scanner) : hasStray t.toList = (cutsFrom .outside none t.rest).any id := by
  fun_induction toList t with
  | case1 t h =>
    cases hs : skipBlanks t.rest with
    | nil =>
      rw [cutsFrom_eq, hs]
      rfl
    | cons c r =>
      rw [next?_of_cons hs] at h
      cases h
  | case2 t token t' h ih => rw [hasStray, head?_isStray, ih, any_cuts_next? h]

theorem hasStray_map_bare (items : List Token) : hasStray (items.map Token.bare) = hasStray items := by
  have hbare : ∀ token : Token,
      token.bare.isOfLetter = token.isOfLetter ∧ token.bare.isStray = token.isStray := by
    intro token
    cases token with
    | error cause => cases cause <;> exact ⟨rfl, rfl⟩
    | _ => exact ⟨rfl, rfl⟩
  induction items with
  | nil => rfl
  | cons token rest ih =>
    rw [List.map_cons, hasStray, hasStray, ih, (hbare token).1, List.head?_map, Option.any_map]
    simp only [(hbare _).2]

/-! ## Lines -/

/-- Lines with the same characters have as many places that can be cut. -/
theorem length_cutsFrom (place : Place) (gap : Option Char) (s : List Char) :
    (cutsFrom place gap s).length = ((squeeze s).takeWhile fun c => !isOpener c).length := by
  induction s generalizing place gap with
  | nil => rfl
  | cons c s ih =>
    rw [cutsFrom, squeeze]
    split
    · exact ih place _
    · split
      · next ho => rw [List.takeWhile_cons_of_neg (by simp [ho]), List.length_nil, List.length_nil]
      · next ho =>
        have hupper : isOpener c.toUpper = false := by
          rw [class_toUpper fun _ => not_isAlpha_of_isOpener]
          exact Bool.eq_false_iff.mpr ho
        rw [List.takeWhile_cons_of_pos (by simp [hupper]), List.length_cons, List.length_cons, ih]

theorem cuts_eq_of_whole {s t : List Char} (h : squeeze s = squeeze t) (hs : true ∉ cuts s)
    (ht : true ∉ cuts t) : cuts s = cuts t := by
  have hfalse : ∀ {l : List Bool}, true ∉ l → l = List.replicate l.length false := by
    intro l hl
    refine List.eq_replicate_iff.mpr ⟨rfl, fun b hb => ?_⟩
    cases b with
    | false => rfl
    | true => exact absurd hb hl
  have hlength : (cuts s).length = (cuts t).length := by
    rw [cuts, cuts, length_cutsFrom, length_cutsFrom, h]
  rw [hfalse hs, hfalse ht, hlength]

/-- Spaces and tabs cut no number. -/
theorem not_mem_cuts_of_isSpace {s : List Char}
    (h : ∀ c ∈ s, isBlank c = true → isSpace c = true) : true ∉ cuts s := by
  have hfrom : ∀ (place : Place) (gap : Option Char), (∀ b ∈ gap, isSpace b = true) →
      true ∉ cutsFrom place gap s := by
    induction s with
    | nil => exact fun _ _ _ => List.not_mem_nil
    | cons c s ih =>
      have ih := ih fun d hd => h d (List.mem_cons_of_mem c hd)
      intro place gap hgap
      rw [cutsFrom]
      split
      · next hc =>
        refine ih place _ fun b hb => ?_
        cases gap with
        | none =>
          cases hb
          exact h c List.mem_cons_self hc
        | some g => exact hgap b hb
      · split
        · exact List.not_mem_nil
        · have hany : (gap.any fun b => !isSpace b) = false := by
            cases gap with
            | none => rfl
            | some g => simpa using hgap g rfl
          rw [hany, Bool.and_false]
          simpa using ih _ none (fun b hb => by cases hb)
  exact hfrom .outside none fun b hb => by cases hb

/-- A number is cut exactly if a stray digit or point follows a word. -/
theorem hasStray_tokens (line : String) : hasStray (tokens line) = true ↔ true ∈ cuts line.toList := by
  rw [tokens, hasStray_toList, List.any_eq_true]
  exact ⟨fun ⟨b, hb, h⟩ => (show b = true from h) ▸ hb, fun h => ⟨true, h, rfl⟩⟩

/-- **Blanks matter only where they cut a number.** Take two lines that differ in blanks and in the case of
letters before the comment. If the same characters are cut off from their numbers, the items are the same up
to columns; so they are if the lines differ in case only. If one of the lines has no number that is cut, the
items are the same exactly if the other has none either, and a line whose blanks are spaces and tabs has
none. -/
theorem tokens_of_squeeze_eq (s t : String) (h : squeeze s.toList = squeeze t.toList) :
    (cuts s.toList = cuts t.toList → (tokens s).map Token.bare = (tokens t).map Token.bare) ∧
      (foldCase s.toList = foldCase t.toList → (tokens s).map Token.bare = (tokens t).map Token.bare) ∧
      (true ∉ cuts t.toList →
        ((tokens s).map Token.bare = (tokens t).map Token.bare ↔ true ∉ cuts s.toList)) ∧
      ((∀ c ∈ s.toList, isBlank c = true → isSpace c = true) → true ∉ cuts s.toList) := by
  have hsame : cuts s.toList = cuts t.toList → (tokens s).map Token.bare = (tokens t).map Token.bare :=
    fun hcuts => toList_alike rfl ⟨h, hcuts⟩
  refine ⟨hsame, fun hcase => hsame (Alike.of_foldCase hcase).cuts, fun ht => ⟨fun heq hs => ?_, ?_⟩,
    not_mem_cuts_of_isSpace⟩
  · -- a stray digit tells the lines apart
    have hstray := congrArg hasStray heq
    rw [hasStray_map_bare, hasStray_map_bare, (hasStray_tokens s).mpr hs] at hstray
    exact ht ((hasStray_tokens t).mp hstray.symm)
  · exact fun hs => hsame (cuts_eq_of_whole h hs ht)

/-- Spaces and tabs between the characters of a number, and a line break before a letter. -/
theorem tokens_of_spread_word :
    true ∉ cuts "n5 g1\u000bx 1\t0 ; End".toList ∧
      (tokens "n5 g1\u000bx 1\t0 ; End").map Token.bare = (tokens "N5G1X10; End").map Token.bare := by
  have hcuts : true ∉ cuts "n5 g1\u000bx 1\t0 ; End".toList := by decide +kernel
  have h := tokens_of_squeeze_eq "n5 g1\u000bx 1\t0 ; End" "N5G1X10; End" (by decide +kernel)
  exact ⟨hcuts, (h.2.2.1 (by decide +kernel)).mpr hcuts⟩

/-- A blank that is no space or tab cuts a number: the same two digits are one number or two items. -/
theorem noBreakSpace_cuts :
    squeeze "X1\u00a00".toList = squeeze "X10".toList ∧
      (tokens "X1\u00a00").map Token.bare ≠ (tokens "X10").map Token.bare := by
  decide +kernel

end Scanner

end Toolpath
