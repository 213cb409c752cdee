import Toolpath.Proofs.Scanner.Steps

/-!
# Lines that are spelled alike

The items of a line depend on its characters, blanks and the case of letters aside, and on the places
where a gap cuts off a digit or a point from the number before it. A gap cuts there if its first blank
is neither a space nor a tab. Comments are taken as they are.

* `squeeze`: a line without its blanks and in upper case; `foldCase`: the same with its blanks.
* `cuts`: the places where a number is cut.
* `Alike`: lines with the same characters and cuts. `Alike.cases`: how such lines begin.
* `numerals_alike`, `numberText_alike`, `item_alike`: the parts of an item.
* `next?_alike`, `toList_alike`: the scanner finds the same items, up to columns (`Token.bare`).
-/

namespace Toolpath

open Text

/-- An item without its column. -/
def Token.bare : Token → Token
  | .word letter value raw _ => .word letter value raw 0
  | .error (.unexpectedCharacter _ found) => .error (.unexpectedCharacter 0 found)
  | .error (.missingValue _ letter) => .error (.missingValue 0 letter)
  | .error (.invalidNumber _ letter text) => .error (.invalidNumber 0 letter text)
  | token => token

namespace Scanner

/-- A line without its blanks and in upper case; its comment stays as it is. -/
def squeeze : List Char → List Char
  | [] => []
  | c :: s =>
    if isBlank c then squeeze s
    else if isOpener c then c :: s
    else c.toUpper :: squeeze s

/-- A line in upper case; its comment stays as it is. -/
def foldCase : List Char → List Char
  | [] => []
  | c :: s => if isOpener c then c :: s else c.toUpper :: foldCase s

/-- Where the scanner is with respect to the words of a line. -/
inductive Place where
  | outside
  /-- Behind an address letter. -/
  | letter
  /-- Behind a character of a word's number. -/
  | number
deriving DecidableEq, Repr

/-- The place behind a character, which may be cut off from the number before it. -/
def Place.next (place : Place) (cut : Bool) (c : Char) : Place :=
  if c.isAlpha then .letter
  else match place with
    | .outside => .outside
    | .letter => if isSign c || isNumeral c then .number else .outside
    | .number => if isNumeral c && !cut then .number else .outside

/-- For each character of a line before its comment, blanks aside: whether it belongs to a number and the
gap in front cuts it off. Only the first blank of a gap counts, and spaces and tabs do not cut. -/
def cutsFrom (place : Place) (gap : Option Char) : List Char → List Bool
  | [] => []
  | c :: s =>
    if isBlank c then cutsFrom place (gap.or (some c)) s
    else if isOpener c then []
    else
      let cut := place = .number && isNumeral c && gap.any fun b => !isSpace b
      cut :: cutsFrom (place.next cut c) none s

/-- The characters of a line that a gap cuts off from their number. -/
def cuts (s : List Char) : List Bool := cutsFrom .outside none s

variable {s r : List Char} {c : Char} {place : Place}

theorem squeeze_skipBlanks (s : List Char) : squeeze (skipBlanks s) = squeeze s := by
  induction s with
  | nil => rfl
  | cons c s ih =>
    cases hc : isBlank c with
    | true => rw [skipBlanks_of_isBlank hc, ih, squeeze, if_pos hc]
    | false => rw [skipBlanks_of_not_isBlank hc]

theorem squeeze_eq (s : List Char) :
    squeeze s =
      match skipBlanks s with
      | [] => []
      | c :: r => if isOpener c then c :: r else c.toUpper :: squeeze r := by
  rw [← squeeze_skipBlanks]
  cases h : skipBlanks s with
  | nil => rfl
  | cons c r =>
    rw [squeeze, isBlank_of_skipBlanks h]
    rfl

/-- The first character of a line that is no blank, in upper case; a comment's opener has no case. -/
theorem head?_squeezed (c : Char) (r : List Char) :
    (if isOpener c then c :: r else c.toUpper :: squeeze r).head? = some c.toUpper := by
  split
  · next h => rw [List.head?_cons, toUpper_of_not_isAlpha (not_isAlpha_of_isOpener h)]
  · rfl

theorem cutsFrom_skipBlanks (place : Place) (b : Char) (s : List Char) :
    cutsFrom place (some b) (skipBlanks s) = cutsFrom place (some b) s := by
  induction s with
  | nil => rfl
  | cons c s ih =>
    cases hc : isBlank c with
    | true => rw [skipBlanks_of_isBlank hc, ih, cutsFrom, if_pos hc, Option.some_or]
    | false => rw [skipBlanks_of_not_isBlank hc]

/-- Whether the gap in front of a line cuts off its first character. -/
def isCut (place : Place) (s : List Char) (c : Char) : Bool :=
  place = .number && isNumeral c && !goesOn s

theorem isCut_number (s : List Char) (c : Char) : isCut .number s c = (isNumeral c && !goesOn s) := rfl

theorem cutsFrom_eq (place : Place) (s : List Char) :
    cutsFrom place none s =
      match skipBlanks s with
      | [] => []
      | c :: r =>
        if isOpener c then []
        else isCut place s c :: cutsFrom (place.next (isCut place s c) c) none r := by
  cases s with
  | nil => rfl
  | cons b s =>
    cases hb : isBlank b with
    | true =>
      rw [skipBlanks_of_isBlank hb, cutsFrom, if_pos hb, Option.none_or, ← cutsFrom_skipBlanks]
      cases h : skipBlanks s with
      | nil => rfl
      | cons c r =>
        rw [cutsFrom, isBlank_of_skipBlanks h]
        simp [isCut, goesOn, hb]
    | false =>
      rw [skipBlanks_of_not_isBlank hb, cutsFrom, hb]
      simp [isCut, goesOn, hb]

/-! ## Lines that are spelled alike -/

/-- Lines with the same characters, cut at the same ones. -/
structure Alike (place : Place) (s t : List Char) : Prop where
  squeeze : squeeze s = squeeze t
  cuts : cutsFrom place none s = cutsFrom place none t

theorem Alike.refl (place : Place) (s : List Char) : Alike place s s := ⟨rfl, rfl⟩

theorem Place.next_toUpper (place : Place) (cut : Bool) {c d : Char} (h : c.toUpper = d.toUpper) :
    place.next cut c = place.next cut d := by
  cases hc : c.isAlpha with
  | false => rw [eq_of_toUpper_eq h hc]
  | true =>
    have hd : d.isAlpha = true := by rw [← isAlpha_toUpper, ← h, isAlpha_toUpper, hc]
    unfold next
    rw [if_pos hc, if_pos hd]

theorem squeeze_foldCase (s : List Char) : squeeze (foldCase s) = squeeze s := by
  induction s with
  | nil => rfl
  | cons c s ih =>
    rw [foldCase]
    split
    · rfl
    · next ho =>
      rw [squeeze, squeeze, class_toUpper fun _ => not_isAlpha_of_isBlank,
        class_toUpper fun _ => not_isAlpha_of_isOpener, toUpper_toUpper, ih, if_neg ho, if_neg ho]

theorem cutsFrom_foldCase (place : Place) (gap : Option Char) (s : List Char) :
    cutsFrom place gap (foldCase s) = cutsFrom place gap s := by
  induction s generalizing place gap with
  | nil => rfl
  | cons c s ih =>
    rw [foldCase]
    split
    · rfl
    · next ho =>
      rw [cutsFrom, cutsFrom, class_toUpper fun _ => not_isAlpha_of_isBlank,
        class_toUpper fun _ => not_isAlpha_of_isOpener, class_toUpper fun _ => not_isAlpha_of_isNumeral]
      cases hb : isBlank c with
      | true => rw [if_pos rfl, if_pos rfl, ih, toUpper_of_not_isAlpha (not_isAlpha_of_isBlank hb)]
      | false =>
        simp only [Bool.false_eq_true, if_false, ho, ih, Place.next_toUpper _ _ (toUpper_toUpper c)]

/-- Lines that differ in the case of letters only. -/
theorem Alike.of_foldCase {s t : List Char} (h : foldCase s = foldCase t) : Alike place s t where
  squeeze := by rw [← squeeze_foldCase, h, squeeze_foldCase]
  cuts := by rw [← cutsFrom_foldCase, h, cutsFrom_foldCase]

/-- How two lines begin that are spelled alike. -/
inductive Alike.Cases (place : Place) (s t : List Char) : Prop where
  | nothing (hs : skipBlanks s = []) (ht : skipBlanks t = [])
  | comment (c : Char) (r : List Char) (hc : isOpener c = true) (hs : skipBlanks s = c :: r)
      (ht : skipBlanks t = c :: r)
  | code (c d : Char) (r u : List Char) (hs : skipBlanks s = c :: r) (ht : skipBlanks t = d :: u)
      (hc : isOpener c = false) (hd : isOpener d = false) (hcase : c.toUpper = d.toUpper)
      (hcut : isCut place s c = isCut place t d) (h : Alike (place.next (isCut place s c) c) r u)

/-- **Inversion.** -/
theorem Alike.cases {s t : List Char} (h : Alike place s t) : Cases place s t := by
  obtain ⟨hsq, hcuts⟩ := h
  rw [squeeze_eq s, squeeze_eq t] at hsq
  rw [cutsFrom_eq place s, cutsFrom_eq place t] at hcuts
  cases hs : skipBlanks s with
  | nil =>
    cases ht : skipBlanks t with
    | nil => exact .nothing hs ht
    | cons d u =>
      rw [hs, ht] at hsq
      dsimp only at hsq
      split at hsq <;> cases hsq
  | cons c r =>
    cases ht : skipBlanks t with
    | nil =>
      rw [hs, ht] at hsq
      dsimp only at hsq
      split at hsq <;> cases hsq
    | cons d u =>
      simp only [hs, ht] at hsq hcuts
      have hcase : c.toUpper = d.toUpper := by
        have hhead := congrArg List.head? hsq
        rwa [head?_squeezed, head?_squeezed, Option.some.injEq] at hhead
      have ho : isOpener c = isOpener d := class_of_toUpper_eq (fun _ => not_isAlpha_of_isOpener) hcase
      cases hc : isOpener c with
      | true =>
        have hd := ho.symm.trans hc
        simp only [hc, hd, if_true] at hsq
        cases hsq
        exact .comment c r hc hs ht
      | false =>
        have hd := ho.symm.trans hc
        simp only [hc, hd, Bool.false_eq_true, if_false, List.cons.injEq] at hsq hcuts
        refine .code c d r u hs ht hc hd hcase hcuts.1 ⟨hsq.2, ?_⟩
        rw [hcuts.2, hcuts.1, Place.next_toUpper _ _ hcase]

/-! ## The same items -/

variable {t u : List Char} {d : Char}

theorem squeeze_of_code (hs : skipBlanks s = c :: r) (hc : isOpener c = false) :
    squeeze s = c.toUpper :: squeeze r := by
  rw [squeeze_eq, hs]
  simp [hc]

theorem cutsFrom_of_code (hs : skipBlanks s = c :: r) (hc : isOpener c = false) :
    cutsFrom place none s = isCut place s c :: cutsFrom (place.next (isCut place s c) c) none r := by
  rw [cutsFrom_eq, hs]
  simp [hc]

theorem cutsFrom_of_comment (hs : skipBlanks s = c :: r) (hc : isOpener c = true) :
    cutsFrom place none s = [] := by
  rw [cutsFrom_eq, hs]
  simp [hc]

theorem Alike.of_nil (hs : skipBlanks s = []) (ht : skipBlanks t = []) : Alike place s t :=
  ⟨by rw [squeeze_eq, hs, squeeze_eq, ht], by rw [cutsFrom_eq, hs, cutsFrom_eq, ht]⟩

theorem Alike.of_comment (hc : isOpener c = true) (hs : skipBlanks s = c :: r)
    (ht : skipBlanks t = c :: r) : Alike place s t :=
  ⟨by rw [squeeze_eq, hs, squeeze_eq, ht],
    by rw [cutsFrom_of_comment hs hc, cutsFrom_of_comment ht hc]⟩

/-- Outside of a number nothing is cut. -/
theorem Alike.outside_of_code (hs : skipBlanks s = c :: r) (ht : skipBlanks t = d :: u)
    (hc : isOpener c = false) (hd : isOpener d = false) (hcase : c.toUpper = d.toUpper)
    (h : Alike (Place.outside.next false c) r u) : Alike .outside s t := by
  have hcut : ∀ (s : List Char) (c : Char), isCut .outside s c = false := fun _ _ => rfl
  constructor
  · rw [squeeze_of_code hs hc, squeeze_of_code ht hd, hcase, h.squeeze]
  · rw [cutsFrom_of_code hs hc, cutsFrom_of_code ht hd, hcut, hcut, h.cuts,
      Place.next_toUpper _ _ hcase]

/-- Behind the end of a number the scanner is outside. -/
theorem Place.next_of_stops {cut : Bool} (h : (isNumeral c && !cut) = false) :
    number.next cut c = outside.next false c := by
  unfold next
  split
  · rfl
  · simp only [h, Bool.false_eq_true, if_false]

theorem Place.next_of_isNumeral (h : isNumeral c = true) : number.next false c = number := by
  unfold next
  rw [not_isAlpha_of_isNumeral h, h]
  rfl

/-- **The numbers** of two lines that are spelled alike. -/
theorem numerals_alike (h : Alike .number s t) :
    (numerals s).1 = (numerals t).1 ∧ Alike .outside (numerals s).2 (numerals t).2 := by
  induction hn : s.length using Nat.strongRecOn generalizing s t with
  | ind n ih =>
  cases h.cases with
  | nothing hs ht =>
    rw [numerals_of_nil hs, numerals_of_nil ht]
    exact ⟨rfl, .of_nil hs ht⟩
  | comment c r hc hs ht =>
    have hstop : ∀ s, (isNumeral c && goesOn s) = false := by simp [not_isNumeral_of_isOpener hc]
    rw [numerals_of_stops hs (hstop s), numerals_of_stops ht (hstop t)]
    exact ⟨rfl, .of_comment hc hs ht⟩
  | code c d r u hs ht hc hd hcase hcut h =>
    have hnum : isNumeral c = isNumeral d :=
      class_of_toUpper_eq (fun _ => not_isAlpha_of_isNumeral) hcase
    have hboth : (isNumeral c && goesOn s) = (isNumeral d && goesOn t) := by
      have hbool : ∀ n a b : Bool, (n && !a) = (n && !b) → (n && a) = (n && b) := by decide
      rw [isCut_number, isCut_number, ← hnum] at hcut
      rw [← hnum]
      exact hbool _ _ _ hcut
    cases hgo : isNumeral c && goesOn s with
    | false =>
      rw [numerals_of_stops hs hgo, numerals_of_stops ht (hboth ▸ hgo)]
      have hstop : (isNumeral c && !isCut .number s c) = false := by
        have hbool : ∀ n a : Bool, (n && a) = false → (n && !(n && !a)) = false := by decide
        rw [isCut_number]
        exact hbool _ _ hgo
      rw [Place.next_of_stops hstop] at h
      exact ⟨rfl, .outside_of_code hs ht hc hd hcase h⟩
    | true =>
      obtain ⟨hcn, hgs⟩ := Bool.and_eq_true_iff.mp hgo
      obtain ⟨hdn, hgt⟩ := Bool.and_eq_true_iff.mp (hboth ▸ hgo)
      have hcut : isCut .number s c = false := by rw [isCut, hgs, Bool.not_true, Bool.and_false]
      rw [hcut, Place.next_of_isNumeral hcn] at h
      have hlt : r.length < n := by
        have := skipBlanks_length_le s
        rw [hs, List.length_cons] at this
        omega
      obtain ⟨htext, hrest⟩ := ih r.length hlt h rfl
      rw [numerals_of_goesOn hs hcn hgs, numerals_of_goesOn ht hdn hgt, htext,
        eq_of_toUpper_eq hcase (not_isAlpha_of_isNumeral hcn)]
      exact ⟨rfl, hrest⟩

theorem Place.next_of_sign (h : (isSign c || isNumeral c) = true) : letter.next false c = number := by
  have ha : c.isAlpha = false := by
    rcases Bool.or_eq_true_iff.mp h with h | h
    · exact not_isAlpha_of_isSign h
    · exact not_isAlpha_of_isNumeral h
  unfold next
  simp only [ha, h, Bool.false_eq_true, if_false, if_true]

theorem Place.next_of_other (h : (isSign c || isNumeral c) = false) :
    letter.next false c = outside.next false c := by
  unfold next
  simp only [h, Bool.false_eq_true, if_false]

theorem numberText_alike (h : Alike .letter s t) :
    (numberText s).1 = (numberText t).1 ∧ Alike .outside (numberText s).2 (numberText t).2 := by
  cases h.cases with
  | nothing hs ht =>
    rw [numberText_of_nil hs, numberText_of_nil ht]
    exact ⟨rfl, .refl _ _⟩
  | comment c r hc hs ht =>
    have hsign := not_isSign_of_isOpener hc
    rw [numberText_of_not_isSign hs hsign, numberText_of_not_isSign ht hsign]
    exact ⟨rfl, .refl _ _⟩
  | code c d r u hs ht hc hd hcase hcut h =>
    have hcut : isCut .letter s c = false := rfl
    rw [hcut] at h
    have hsign : isSign c = isSign d := class_of_toUpper_eq (fun _ => not_isAlpha_of_isSign) hcase
    have hnum : isNumeral c = isNumeral d :=
      class_of_toUpper_eq (fun _ => not_isAlpha_of_isNumeral) hcase
    have hsc := skipBlanks_of_not_isBlank (s := r) (isBlank_of_skipBlanks hs)
    have htd := skipBlanks_of_not_isBlank (s := u) (isBlank_of_skipBlanks ht)
    cases hcs : isSign c with
    | true =>
      rw [Place.next_of_sign (by rw [hcs]; rfl)] at h
      obtain ⟨htext, hrest⟩ := numerals_alike h
      rw [numberText_of_isSign hs hcs, numberText_of_isSign ht (hsign ▸ hcs), htext,
        eq_of_toUpper_eq hcase (not_isAlpha_of_isSign hcs)]
      exact ⟨rfl, hrest⟩
    | false =>
      rw [numberText_of_not_isSign hs hcs, numberText_of_not_isSign ht (hsign ▸ hcs)]
      cases hcn : isNumeral c with
      | true =>
        rw [Place.next_of_sign (by rw [hcn, Bool.or_true])] at h
        obtain ⟨htext, hrest⟩ := numerals_alike h
        rw [numerals_of_goesOn hsc hcn (goesOn_of_not_isBlank (isBlank_of_skipBlanks hs)),
          numerals_of_goesOn htd (hnum ▸ hcn) (goesOn_of_not_isBlank (isBlank_of_skipBlanks ht)),
          htext, eq_of_toUpper_eq hcase (not_isAlpha_of_isNumeral hcn)]
        exact ⟨rfl, hrest⟩
      | false =>
        rw [numerals_of_stops hsc (by rw [hcn]; rfl), numerals_of_stops htd (by rw [← hnum, hcn]; rfl)]
        rw [Place.next_of_other (by rw [hcs, hcn]; rfl)] at h
        exact ⟨rfl, .outside_of_code hsc htd hc hd hcase h⟩

theorem wordToken_bare (letter : Char) (column : Nat) (text : List Char) :
    (wordToken letter column text).bare = wordToken letter 0 text := by
  unfold wordToken
  split
  · rfl
  · dsimp only
    split
    · rfl
    · split
      · split
        · split <;> rfl
        · rfl
      · rfl

theorem markToken_bare (fresh : Bool) (column : Nat) (c : Char) :
    (markToken fresh column c).bare = markToken fresh 0 c := by
  unfold markToken
  split
  · rfl
  · split <;> rfl

theorem item_alike (fresh : Bool) (column column' : Nat) (hc : isOpener c = false)
    (hcase : c.toUpper = d.toUpper) (h : Alike (Place.outside.next false c) r u) :
    (item fresh column c r).1.bare = (item fresh column' d u).1.bare ∧
      Alike .outside (item fresh column c r).2 (item fresh column' d u).2 := by
  unfold Place.next at h
  cases ha : c.isAlpha with
  | true =>
    have hda : d.isAlpha = true := by rw [← isAlpha_toUpper, ← hcase, isAlpha_toUpper, ha]
    rw [if_pos ha] at h
    obtain ⟨htext, hrest⟩ := numberText_alike h
    rw [item_of_isAlpha ha, item_of_isAlpha hda, htext, hcase, wordToken_bare, wordToken_bare]
    exact ⟨rfl, hrest⟩
  | false =>
    obtain rfl := eq_of_toUpper_eq hcase ha
    rw [if_neg (by simp [ha])] at h
    rw [item_of_mark hc ha, item_of_mark hc ha, markToken_bare, markToken_bare]
    exact ⟨rfl, h⟩

/-- Two scanners find the same item, or none, and what is left after it is spelled alike. -/
inductive SameStep : Option (Token × Scanner) → Option (Token × Scanner) → Prop where
  | none : SameStep none none
  | some {a b : Token} {s t : Scanner} (hb : a.bare = b.bare) (hf : s.fresh = t.fresh)
      (h : Alike .outside s.rest t.rest) : SameStep (some (a, s)) (some (b, t))

/-- **One item.** -/
theorem next?_alike {s t : Scanner} (hf : s.fresh = t.fresh) (h : Alike .outside s.rest t.rest) :
    SameStep s.next? t.next? := by
  cases h.cases with
  | nothing hs ht =>
    rw [next?_of_nil hs, next?_of_nil ht]
    exact .none
  | comment c r hc hs ht =>
    rw [next?_of_cons hs, next?_of_cons ht, item_of_isOpener hc, item_of_isOpener hc]
    exact .some rfl rfl (.refl _ _)
  | code c d r u hs ht hc hd hcase hcut h =>
    obtain ⟨hbare, hrest⟩ := item_alike s.fresh s.start.column t.start.column hc hcase h
    rw [next?_of_cons hs, next?_of_cons ht, ← hf]
    exact .some hbare rfl hrest

/-- **All items.** -/
theorem toList_alike {s t : Scanner} (hf : s.fresh = t.fresh) (h : Alike .outside s.rest t.rest) :
    s.toList.map Token.bare = t.toList.map Token.bare := by
  fun_induction toList s generalizing t with
  | case1 s hs =>
    have hstep := next?_alike hf h
    rw [hs] at hstep
    generalize ht : t.next? = next at hstep
    cases hstep
    rw [toList_of_none ht]
  | case2 s token s' hs ih =>
    have hstep := next?_alike hf h
    rw [hs] at hstep
    generalize ht : t.next? = next at hstep
    cases hstep with
    | some hb hf h =>
      rw [toList_of_some ht, List.map_cons, List.map_cons, hb, ih hf h]

end Scanner

end Toolpath
