import Toolpath.Proofs.Json.Numeral

/-!
# Reading back JSON texts

What `serde_json::from_str` reads from a text that `to_string_pretty` has written.

* `string?_flatMap`: strings.
* `asRead`: a tree with other numbers in it; a double that is not finite is written as `null`.
* `holdsWords`: whether the whole numbers of a tree have 64 bits.
* `value?_prettyAt`, `read?_pretty`: whole trees.
* `isExact`, `read?_pretty_of_isExact`: trees that come back unchanged.
-/

namespace Toolpath.Json

open Number

/-! ## Strings -/

section Strings

theorem hexValue?_hexDigit {d : Nat} (h : d < 16) : hexValue? (hexDigit d) = some d := by
  revert h
  revert d
  decide

/-- A control character is read from its code. -/
theorem unicodeEscape?_code {c : Char} (h : c.toNat < 32) (s : List Char) :
    unicodeEscape? ('0' :: '0' :: hexDigit (c.toNat / 16) :: hexDigit (c.toNat % 16) :: s) = some (some c, s) := by
  have hzero : hexValue? '0' = some 0 := rfl
  have hhigh := hexValue?_hexDigit (show c.toNat / 16 < 16 by omega)
  have hlow := hexValue?_hexDigit (show c.toNat % 16 < 16 by omega)
  have hcode : 4096 * 0 + 256 * 0 + 16 * (c.toNat / 16) + c.toNat % 16 = c.toNat := by omega
  have hfour : hex4? ('0' :: '0' :: hexDigit (c.toNat / 16) :: hexDigit (c.toNat % 16) :: s) = some (c.toNat, s) := by
    simp only [hex4?, hzero, hhigh, hlow, Option.bind_eq_bind, Option.bind_some, hcode]
    rfl
  have hbmp : ¬ (decide (0xD800 ≤ c.toNat) && decide (c.toNat < 0xDC00)) = true := by
    rw [Bool.and_eq_true, decide_eq_true_iff]
    omega
  have hbmp' : ¬ (decide (0xDC00 ≤ c.toNat) && decide (c.toNat < 0xE000)) = true := by
    rw [Bool.and_eq_true, decide_eq_true_iff]
    omega
  simp only [unicodeEscape?, hfour, Option.bind_eq_bind, Option.bind_some, if_neg hbmp, if_neg hbmp', Char.ofNat_toNat]

/-- One character is read from what it is written as. -/
theorem stringBody?_escaped_append (fuel : Nat) (before : List (Option Char)) (c : Char) (s : List Char) :
    stringBody? (fuel + 1) before (escaped c ++ s) = stringBody? fuel (some c :: before) s := by
  unfold escaped
  split
  · rfl
  · rfl
  · rfl
  · rfl
  · rfl
  · rfl
  · rfl
  · rename_i hquote hback _ _ _ _ _
    split
    · rename_i hcontrol
      have hcode := unicodeEscape?_code hcontrol s
      have hescape : escape? ('u' :: '0' :: '0' :: hexDigit (c.toNat / 16) :: hexDigit (c.toNat % 16) :: s) =
          some (some c, s) := hcode
      change stringBody? (fuel + 1) before
        ('\\' :: 'u' :: '0' :: '0' :: hexDigit (c.toNat / 16) :: hexDigit (c.toNat % 16) :: s) = _
      rw [stringBody?, hescape]
    · rename_i hplain
      change stringBody? (fuel + 1) before (c :: s) = _
      rw [stringBody?]
      · exact if_neg hplain
      · rintro rfl
        exact hquote rfl
      · rintro rfl
        exact hback rfl

/-- The characters of a string up to its closing quote. -/
theorem stringBody?_flatMap {fuel : Nat} (before : List (Option Char)) (cs rest : List Char) (h : cs.length < fuel) :
    stringBody? fuel before (cs.flatMap escaped ++ '"' :: rest) = some (before.reverse ++ cs.map some, rest) := by
  induction cs generalizing fuel before with
  | nil =>
    obtain ⟨fuel, rfl⟩ := Nat.exists_eq_succ_of_ne_zero (Nat.ne_of_gt h)
    rw [List.map_nil, List.append_nil]
    rfl
  | cons c cs ih =>
    obtain ⟨fuel, rfl⟩ := Nat.exists_eq_succ_of_ne_zero (Nat.ne_of_gt (Nat.zero_lt_of_lt h))
    rw [List.flatMap_cons, List.append_assoc, stringBody?_escaped_append, ih _ (Nat.lt_of_succ_lt_succ h)]
    rw [List.reverse_cons, List.append_assoc, List.map_cons]
    rfl

/-- **Strings are read back.** -/
theorem string?_flatMap {fuel : Nat} (s : String) (rest : List Char) (h : s.toList.length < fuel) :
    string? fuel (s.toList.flatMap escaped ++ '"' :: rest) = some (some s, rest) := by
  have hall : (s.toList.map some).mapM id = some s.toList := by
    induction s.toList with
    | nil => rfl
    | cons c cs ih =>
      rw [List.map_cons, List.mapM_cons, ih]
      rfl
  rw [string?, stringBody?_flatMap [] _ _ h, List.reverse_nil, List.nil_append, Option.bind_eq_bind, Option.bind_some]
  dsimp only
  rw [hall, Option.map_some, String.ofList_toList]
  rfl

theorem length_le_flatMap (cs : List Char) : cs.length ≤ (cs.flatMap escaped).length := by
  induction cs with
  | nil => exact Nat.le_refl _
  | cons c cs ih =>
    have hone : 1 ≤ (escaped c).length := by
      unfold escaped
      split
      all_goals try exact Nat.le_add_left _ _
      split <;> exact Nat.le_add_left _ _
    rw [List.flatMap_cons, List.length_append, List.length_cons]
    omega

end Strings

/-! ## Trees -/

section Trees

mutual

/-- A tree with other doubles in it. One that is not finite becomes `null`, and so does what nothing here can hold. -/
def asRead (f : Float → Float) : Value → Value
  | .real x => if x.isFinite then .real (f x) else .null
  | .unheld => .null
  | .array items => .array (asReadItems f items)
  | .table entries => .table (asReadEntries f entries)
  | v => v

def asReadItems (f : Float → Float) : List Value → List Value
  | [] => []
  | v :: vs => asRead f v :: asReadItems f vs

def asReadEntries (f : Float → Float) : List (String × Value) → List (String × Value)
  | [] => []
  | (key, v) :: entries => (key, asRead f v) :: asReadEntries f entries

end

mutual

/-- Whether the whole numbers of a tree have 64 bits, with a sign or without. -/
def holdsWords : Value → Bool
  | .integer n => -(twoTo 63 : Int) ≤ n && n < twoTo 64
  | .array items => itemsHoldWords items
  | .table entries => entriesHoldWords entries
  | _ => true

def itemsHoldWords : List Value → Bool
  | [] => true
  | v :: vs => holdsWords v && itemsHoldWords vs

def entriesHoldWords : List (String × Value) → Bool
  | [] => true
  | (_, v) :: entries => holdsWords v && entriesHoldWords entries

end

/-! ### Other numbers in a tree -/

theorem asReadItems_eq (f : Float → Float) (items : List Value) : asReadItems f items = items.map (asRead f) := by
  induction items with
  | nil => rfl
  | cons v vs ih => rw [asReadItems, ih, List.map_cons]

theorem asReadEntries_zip (f : Float → Float) (names : List String) (values : List Value) :
    asReadEntries f (names.zip values) = names.zip (values.map (asRead f)) := by
  induction names generalizing values with
  | nil => rfl
  | cons name names ih =>
    cases values with
    | nil => rfl
    | cons v values => rw [List.zip_cons_cons, asReadEntries, ih, List.map_cons, List.zip_cons_cons]

theorem itemsHoldWords_of_forall {items : List Value} (h : ∀ v ∈ items, holdsWords v = true) :
    itemsHoldWords items = true := by
  induction items with
  | nil => rfl
  | cons v vs ih =>
    obtain ⟨hv, hvs⟩ := List.forall_mem_cons.mp h
    rw [itemsHoldWords, hv, ih hvs, Bool.and_self]

theorem entriesHoldWords_of_forall {entries : List (String × Value)}
    (h : ∀ entry ∈ entries, holdsWords entry.2 = true) : entriesHoldWords entries = true := by
  induction entries with
  | nil => rfl
  | cons entry entries ih =>
    obtain ⟨hv, hvs⟩ := List.forall_mem_cons.mp h
    rw [entriesHoldWords, hv, ih hvs, Bool.and_self]

/-- The whole numbers of a record are those of its values. -/
theorem holdsWords_zip (names : List String) {values : List Value} (h : ∀ v ∈ values, holdsWords v = true) :
    holdsWords (.table (names.zip values)) = true :=
  entriesHoldWords_of_forall fun _ he => h _ (List.of_mem_zip he).2

theorem holdsWords_nat {n : Nat} (h : n < twoTo 64) : holdsWords (.nat n) = true := by
  have hpow : (0 : Int) ≤ twoTo 63 := Int.natCast_nonneg _
  rw [Value.nat, holdsWords, Bool.and_eq_true, decide_eq_true_iff, decide_eq_true_iff]
  omega

mutual

/-- Whether the doubles of a tree are finite, and each is read as it was written. -/
def isExact : Value → Bool
  | .real x => x.isFinite && reread x = x
  | .unheld => false
  | .array items => itemsAreExact items
  | .table entries => entriesAreExact entries
  | _ => true

def itemsAreExact : List Value → Bool
  | [] => true
  | v :: vs => isExact v && itemsAreExact vs

def entriesAreExact : List (String × Value) → Bool
  | [] => true
  | (_, v) :: entries => isExact v && entriesAreExact entries

end

mutual

theorem asRead_of_isExact {v : Value} (h : isExact v = true) : asRead reread v = v := by
  cases v with
  | null | bool | integer | string => rfl
  | unheld => cases h
  | real x =>
    rw [isExact, Bool.and_eq_true, decide_eq_true_iff] at h
    rw [asRead, if_pos h.1, h.2]
  | array items => rw [asRead, asReadItems_of_areExact h]
  | table entries => rw [asRead, asReadEntries_of_areExact h]

theorem asReadItems_of_areExact {items : List Value} (h : itemsAreExact items = true) :
    asReadItems reread items = items := by
  cases items with
  | nil => rfl
  | cons v vs =>
    rw [itemsAreExact, Bool.and_eq_true] at h
    rw [asReadItems, asRead_of_isExact h.1, asReadItems_of_areExact h.2]

theorem asReadEntries_of_areExact {entries : List (String × Value)} (h : entriesAreExact entries = true) :
    asReadEntries reread entries = entries := by
  cases entries with
  | nil => rfl
  | cons entry entries =>
    rw [entriesAreExact, Bool.and_eq_true] at h
    rw [asReadEntries, asRead_of_isExact h.1, asReadEntries_of_areExact h.2]

end

/-- Only blanks. -/
def Blanks (s : List Char) : Prop := ∀ c ∈ s, isSpace c = true

theorem skipSpace_append {b s : List Char} (hb : Blanks b) (hs : ∀ c ∈ s.head?, isSpace c = false) :
    skipSpace (b ++ s) = s := by
  rw [skipSpace, List.dropWhile_append_of_pos hb]
  cases s with
  | nil => rfl
  | cons c s => exact List.dropWhile_cons_of_neg (Bool.eq_false_iff.mp (hs c rfl))

theorem blanks_nil : Blanks [] := fun _ h => absurd h List.not_mem_nil

theorem blanks_space : Blanks [' '] := fun c h => by
  rw [List.mem_singleton.mp h]
  rfl

theorem blanks_newline (depth : Nat) : Blanks ('\n' :: (indent depth).toList) := by
  intro c hc
  rw [indent, String.toList_ofList] at hc
  rcases List.mem_cons.mp hc with rfl | hc
  · rfl
  · rw [List.eq_of_mem_replicate hc]
    rfl

theorem not_isSpace_of_isDigit {c : Char} (h : c.isDigit = true) : isSpace c = false := by
  unfold isSpace
  simp only [Bool.or_eq_false_iff, decide_eq_false_iff_not]
  refine ⟨⟨⟨?_, ?_⟩, ?_⟩, ?_⟩
  all_goals
    rintro rfl
    cases h

/-- A tree that starts with a digit or a minus is a number. -/
theorem value?_of_digit {c : Char} {s b : List Char} (hc : c.isDigit = true ∨ c = '-') (hb : Blanks b) (fuel : Nat) :
    value? (fuel + 1) (b ++ c :: s) = (numeral? (c :: s)).map fun (n, rest) => (n.value, rest) := by
  have hspace : isSpace c = false := by
    rcases hc with hc | rfl
    · exact not_isSpace_of_isDigit hc
    · rfl
  have hskip : skipSpace (b ++ c :: s) = c :: s := skipSpace_append hb fun d hd => Option.some.inj hd ▸ hspace
  have hne : ∀ d : Char, d.isDigit = false → d ≠ '-' → c ≠ d := by
    rintro d hd hminus rfl
    rcases hc with hc | hc
    · rw [hd] at hc
      cases hc
    · exact hminus hc
  rw [value?, hskip]
  split
  all_goals first
    | rfl
    | exact absurd (List.cons.inj ‹_›).1 (hne _ rfl (by decide))

/-! ### Leaves -/

theorem ends_of_cons {c : Char} (h : c.isDigit = false ∧ c ≠ '.' ∧ c ≠ 'e' ∧ c ≠ 'E') (s : List Char) :
    Ends (c :: s) := fun _ hd => Option.some.inj hd ▸ h

theorem toList_toString (n : Int) :
    (toString n).toList = numeralChars (decide (n < 0)) (digitChars n.natAbs) [] none := by
  have hnat (m : Nat) : (toString m).toList = digitChars m := by
    rw [Nat.toString_eq_ofList_toDigits, String.toList_ofList]
    rfl
  cases n with
  | ofNat m =>
    have hpos : ¬ Int.ofNat m < 0 := Int.not_lt.mpr (Int.natCast_nonneg m)
    change (toString m).toList = _
    rw [hnat, numeralChars, decide_eq_false hpos]
    exact (List.append_nil _).symm
  | negSucc m =>
    change ("-" ++ toString (m + 1)).toList = _
    rw [String.toList_append, hnat, numeralChars, decide_eq_true (Int.negSucc_lt_zero m)]
    exact congrArg _ (List.append_nil _).symm

theorem proper_digitChars {n : Nat} (h : n < significandBound) : Proper (digitChars n) [] := by
  refine ⟨digits_digitChars _, nofun, digitChars_ne_nil _, fun hzero => ?_, ?_⟩
  · have hnone : n = 0 := Nat.eq_zero_of_not_pos fun hpos => head?_digitChars hpos hzero
    rw [hnone]
    rfl
  · rwa [List.append_nil, ofDigitChars_digitChars]

/-- Whole numbers of 64 bits are read back. -/
theorem numeral?_toString {n : Int} (hn : -(twoTo 63 : Int) ≤ n ∧ n < twoTo 64) {s : List Char} (hs : Ends s) :
    ((numeral? ((toString n).toList ++ s)).map fun (n, rest) => (n.value, rest)) = some (.integer n, s) := by
  have hvalue := ofDigitChars_digitChars n.natAbs
  have hproper : Proper (digitChars n.natAbs) [] := by
    refine proper_digitChars ?_
    have hbound : significandBound = twoTo 64 := rfl
    have hpow : twoTo 63 < twoTo 64 := by decide
    omega
  rw [toList_toString, numeral?_numeralChars hproper hs, Option.map_some]
  refine congrArg some (Prod.ext ?_ rfl)
  have hsignificand (negative : Bool) :
      (Numeral.ofParts negative (digitChars n.natAbs) [] none).significand = n.natAbs := by
    rw [Numeral.ofParts, List.append_nil, hvalue]
  have hwhole (negative : Bool) : (Numeral.ofParts negative (digitChars n.natAbs) [] none).whole = true := rfl
  by_cases hneg : n < 0
  · have hnegative : (Numeral.ofParts true (digitChars n.natAbs) [] none).negative = true := rfl
    simp only [decide_eq_true hneg, Numeral.value, hwhole, hsignificand, hnegative, Bool.not_true, Bool.and_false,
      Bool.false_eq_true, if_false, Bool.true_and]
    rw [if_pos]
    · congr 1
      omega
    · rw [Bool.and_eq_true, decide_eq_true_iff, decide_eq_true_iff]
      omega
  · have hnegative : (Numeral.ofParts false (digitChars n.natAbs) [] none).negative = false := rfl
    simp only [decide_eq_false hneg, Numeral.value, hwhole, hsignificand, hnegative, Bool.not_false, Bool.and_true,
      if_true]
    congr 1
    omega

/-- How a tree starts: with no blank, and with nothing that closes a bracket. -/
def Opens (s : List Char) : Prop := ∃ c t, s = c :: t ∧ isSpace c = false ∧ c ≠ ']' ∧ c ≠ '\x7d'

theorem opens_of_digit {c : Char} (h : c.isDigit = true ∨ c = '-') (t : List Char) : Opens (c :: t) := by
  refine ⟨c, t, rfl, ?_⟩
  rcases h with h | rfl
  · refine ⟨not_isSpace_of_isDigit h, ?_, ?_⟩
    all_goals
      rintro rfl
      cases h
  · decide

theorem head_toString (n : Int) : ∃ c t, (toString n).toList = c :: t ∧ (c.isDigit = true ∨ c = '-') := by
  rw [toList_toString]
  cases hneg : decide (n < 0) with
  | true => exact ⟨'-', _, rfl, .inr rfl⟩
  | false =>
    obtain ⟨c, t, ht⟩ := List.exists_cons_of_ne_nil (digitChars_ne_nil n.natAbs)
    have hc := digits_digitChars n.natAbs c (ht ▸ List.mem_cons_self)
    rw [ht]
    exact ⟨c, _, rfl, .inl hc⟩

theorem head_numberChars {x : Float} (hx : x.isFinite = true) :
    ∃ c t, numberChars x = c :: t ∧ (c.isDigit = true ∨ c = '-') := by
  obtain ⟨negative, ws, fs, p, htext, hproper, -⟩ := exists_numeralChars hx
  rw [htext]
  cases negative with
  | true => exact ⟨'-', _, rfl, .inr rfl⟩
  | false =>
    obtain ⟨c, ws, rfl⟩ := List.exists_cons_of_ne_nil hproper.ne_nil
    exact ⟨c, _, rfl, .inl (hproper.whole c List.mem_cons_self)⟩

theorem opens_bracketed {opener : String} {c : Char} (h : opener.toList = [c])
    (hc : isSpace c = false ∧ c ≠ ']' ∧ c ≠ '\x7d') (closer : String) (depth : Nat) (lines : List String) :
    Opens (bracketed opener closer depth lines).toList := by
  unfold bracketed
  split <;> simp only [String.toList_append, h, List.cons_append, List.nil_append]
  all_goals exact ⟨c, _, rfl, hc⟩

theorem opens_prettyAt (depth : Nat) (v : Value) : Opens (prettyAt depth v).toList := by
  have hnull : "null".toList = ['n', 'u', 'l', 'l'] := rfl
  have htrue : "true".toList = ['t', 'r', 'u', 'e'] := rfl
  have hfalse : "false".toList = ['f', 'a', 'l', 's', 'e'] := rfl
  cases v with
  | array items =>
    rw [prettyAt]
    exact opens_bracketed (c := '[') rfl (by decide) _ _ _
  | table entries =>
    rw [prettyAt]
    exact opens_bracketed (c := '\x7b') rfl (by decide) _ _ _
  | null | unheld => exact ⟨'n', _, hnull, by decide⟩
  | bool b =>
    cases b with
    | false => exact ⟨'f', _, hfalse, by decide⟩
    | true => exact ⟨'t', _, htrue, by decide⟩
  | integer n =>
    obtain ⟨c, t, ht, hc⟩ := head_toString n
    change Opens (toString n).toList
    exact ht ▸ opens_of_digit hc t
  | real x =>
    change Opens (numberText x).toList
    by_cases hx : x.isFinite = true
    · obtain ⟨c, t, ht, hc⟩ := head_numberChars hx
      rw [toList_numberText, ht]
      exact opens_of_digit hc t
    · rw [numberText_of_not_isFinite hx]
      exact ⟨'n', _, hnull, by decide⟩
  | string s =>
    change Opens (quoted s).toList
    rw [quoted, String.toList_ofList]
    exact ⟨'"', _, rfl, by decide⟩

/-! ### Brackets -/

/-- What stands behind the first line between brackets. -/
def tailChars (closer : String) (depth : Nat) : List String → List Char
  | [] => '\n' :: (indent depth).toList ++ closer.toList
  | l :: ls => ',' :: ('\n' :: (indent (depth + 1)).toList ++ (l.toList ++ tailChars closer depth ls))

/-- The lines between brackets, with commas between them, and the closing bracket. -/
theorem intercalate_tailChars (closer : String) (depth : Nat) (l : String) (ls : List String) :
    [',', '\n'].intercalate (((l :: ls).map fun line => indent (depth + 1) ++ line).map String.toList) ++
        ('\n' :: ((indent depth).toList ++ closer.toList)) =
      (indent (depth + 1)).toList ++ (l.toList ++ tailChars closer depth ls) := by
  induction ls generalizing l with
  | nil =>
    simp only [List.map_cons, List.map_nil, List.intercalate_singleton, String.toList_append, tailChars,
      List.append_assoc, List.cons_append]
  | cons l' ls ih =>
    have hrest := ih l'
    simp only [List.map_cons, String.toList_append] at hrest
    simp only [List.map_cons, String.toList_append, List.intercalate_cons_cons, tailChars, List.append_assoc, hrest,
      List.cons_append, List.nil_append]

theorem toList_bracketed (opener closer : String) (depth : Nat) (l : String) (ls : List String) :
    (bracketed opener closer depth (l :: ls)).toList =
      opener.toList ++ ('\n' :: (indent (depth + 1)).toList ++ (l.toList ++ tailChars closer depth ls)) := by
  have hcomma : ",\n".toList = [',', '\n'] := rfl
  have hnewline : "\n".toList = ['\n'] := rfl
  have htext := intercalate_tailChars closer depth l ls
  simp only [bracketed, List.isEmpty_cons, Bool.false_eq_true, if_false, String.toList_append,
    String.toList_intercalate, hcomma, hnewline, List.append_assoc, List.cons_append, List.nil_append, htext]

theorem toList_bracketed_nil (opener closer : String) (depth : Nat) :
    (bracketed opener closer depth []).toList = opener.toList ++ closer.toList := by
  rw [bracketed, if_pos List.isEmpty_nil, String.toList_append]

theorem ends_tailChars (closer : String) (depth : Nat) (ls : List String) (s : List Char) :
    Ends (tailChars closer depth ls ++ s) := by
  cases ls <;> exact ends_of_cons (by decide) _

theorem length_le_tailChars (closer : String) (depth : Nat) (ls : List String) :
    1 ≤ (tailChars closer depth ls).length := by
  cases ls <;> exact Nat.le_add_left _ _

/-! ### Whole trees -/

section Readers

variable {b rest : List Char}

theorem value?_null (hb : Blanks b) (fuel : Nat) (rest : List Char) :
    value? (fuel + 1) (b ++ ("null".toList ++ rest)) = some (.null, rest) := by
  rw [value?, skipSpace_append hb (by rintro c ⟨⟩; rfl)]
  rfl

theorem value?_bool (hb : Blanks b) (fuel : Nat) (rest : List Char) (flag : Bool) :
    value? (fuel + 1) (b ++ ((scalarText (.bool flag)).toList ++ rest)) = some (.bool flag, rest) := by
  cases flag
  all_goals
    rw [value?, skipSpace_append hb (by rintro c ⟨⟩; rfl)]
    rfl

theorem value?_integer {n : Int} (hn : holdsWords (.integer n) = true) (hb : Blanks b) (hs : Ends rest) (fuel : Nat) :
    value? (fuel + 1) (b ++ ((toString n).toList ++ rest)) = some (.integer n, rest) := by
  have hbounds : -(twoTo 63 : Int) ≤ n ∧ n < twoTo 64 := by
    rw [holdsWords, Bool.and_eq_true, decide_eq_true_iff, decide_eq_true_iff] at hn
    exact hn
  have hread := numeral?_toString hbounds hs
  obtain ⟨c, t, ht, hc⟩ := head_toString n
  rw [ht] at hread ⊢
  exact (value?_of_digit hc hb fuel).trans hread

theorem value?_real (x : Float) (hb : Blanks b) (hs : Ends rest) (fuel : Nat) :
    value? (fuel + 1) (b ++ ((numberText x).toList ++ rest)) = some (asRead reread (.real x), rest) := by
  by_cases hx : x.isFinite = true
  · obtain ⟨n, hn, hread⟩ := numeral?_numberChars hx
    obtain ⟨c, t, ht, hc⟩ := head_numberChars hx
    have hnumeral := hread rest hs
    rw [ht] at hnumeral
    rw [toList_numberText, ht, List.cons_append, value?_of_digit hc hb, ← List.cons_append, hnumeral, Option.map_some]
    dsimp only
    rw [hn, asRead, if_pos hx]
  · rw [numberText_of_not_isFinite hx, value?_null hb, asRead, if_neg hx]

theorem value?_string (s : String) (hb : Blanks b) {fuel : Nat} (hfuel : (quoted s).toList.length ≤ fuel) :
    value? (fuel + 1) (b ++ ((quoted s).toList ++ rest)) = some (.string s, rest) := by
  rw [quoted, String.toList_ofList] at hfuel ⊢
  have hlength := length_le_flatMap s.toList
  have hshort : s.toList.length < fuel := by
    simp only [List.length_cons, List.length_append] at hfuel
    omega
  have hbody := string?_flatMap s rest hshort
  have htext : '"' :: s.toList.flatMap escaped ++ ['"'] ++ rest = '"' :: (s.toList.flatMap escaped ++ '"' :: rest) := by
    rw [List.cons_append, List.cons_append, List.append_assoc]
    rfl
  rw [htext, value?, skipSpace_append hb (by rintro c ⟨⟩; rfl)]
  change (string? fuel (s.toList.flatMap escaped ++ '"' :: rest)).map _ = _
  rw [hbody]
  rfl

theorem value?_emptyArray (hb : Blanks b) (fuel : Nat) (rest : List Char) :
    value? (fuel + 1) (b ++ '[' :: ']' :: rest) = some (.array [], rest) := by
  rw [value?, skipSpace_append hb (by rintro c ⟨⟩; rfl)]
  rfl

theorem value?_emptyTable (hb : Blanks b) (fuel : Nat) (rest : List Char) :
    value? (fuel + 1) (b ++ '\x7b' :: '\x7d' :: rest) = some (.table [], rest) := by
  rw [value?, skipSpace_append hb (by rintro c ⟨⟩; rfl)]
  rfl

/-- An array with items in it. -/
theorem value?_array {s : List Char} {fuel : Nat} {items : List Value} (hb : Blanks b) {b' : List Char}
    (hb' : Blanks b')
    (hs : Opens s) (hread : items? fuel s = some (items, rest)) :
    value? (fuel + 1) (b ++ '[' :: (b' ++ s)) = some (.array items, rest) := by
  obtain ⟨c, t, rfl, hc, hclose, -⟩ := hs
  have hopen : skipSpace (b ++ '[' :: (b' ++ c :: t)) = '[' :: (b' ++ c :: t) :=
    skipSpace_append hb (by rintro c ⟨⟩; rfl)
  have hskip : skipSpace (b' ++ c :: t) = c :: t := skipSpace_append hb' fun d hd => Option.some.inj hd ▸ hc
  simp only [value?, hopen, hskip]
  split
  · rename_i heq
    exact absurd (List.cons.inj heq).1 hclose
  · rw [hread]
    rfl

/-- A table with entries in it. -/
theorem value?_table {s : List Char} {fuel : Nat} {entries : List (Option String × Value)} (hb : Blanks b)
    {b' : List Char} (hb' : Blanks b') (hs : Opens s) (hread : entries? fuel s = some (entries, rest)) :
    value? (fuel + 1) (b ++ '\x7b' :: (b' ++ s)) = some (tableOf entries, rest) := by
  obtain ⟨c, t, rfl, hc, -, hclose⟩ := hs
  have hopen : skipSpace (b ++ '\x7b' :: (b' ++ c :: t)) = '\x7b' :: (b' ++ c :: t) :=
    skipSpace_append hb (by rintro c ⟨⟩; rfl)
  have hskip : skipSpace (b' ++ c :: t) = c :: t := skipSpace_append hb' fun d hd => Option.some.inj hd ▸ hc
  simp only [value?, hopen, hskip]
  split
  · rename_i heq
    exact absurd (List.cons.inj heq).1 hclose
  · rw [hread]
    rfl

/-- The last item of an array. -/
theorem items?_last {s : List Char} {fuel : Nat} {v : Value} (hb : Blanks b)
    (hread : value? fuel s = some (v, b ++ ']' :: rest)) : items? (fuel + 1) s = some ([v], rest) := by
  have hskip : skipSpace (b ++ ']' :: rest) = ']' :: rest := skipSpace_append hb (by rintro c ⟨⟩; rfl)
  simp only [items?, hread, Option.bind_eq_bind, Option.bind_some, hskip]

/-- An item with others behind it. -/
theorem items?_more {s s' : List Char} {fuel : Nat} {v : Value} {vs : List Value}
    (hread : value? fuel s = some (v, ',' :: s')) (hmore : items? fuel s' = some (vs, rest)) :
    items? (fuel + 1) s = some (v :: vs, rest) := by
  have hskip : skipSpace (',' :: s') = ',' :: s' := rfl
  simp only [items?, hread, Option.bind_eq_bind, Option.bind_some, hskip, hmore]

/-- The text of an entry of a table. -/
theorem toList_entry (key : String) (text : String) :
    (quoted key ++ ": " ++ text).toList =
      '"' :: (key.toList.flatMap escaped ++ '"' :: ':' :: ([' '] ++ text.toList)) := by
  have hcolon : ": ".toList = [':', ' '] := rfl
  simp only [quoted, String.toList_append, String.toList_ofList, hcolon, List.cons_append, List.append_assoc,
    List.nil_append]

/-- The last entry of a table. -/
theorem entries?_last {b' t : List Char} {fuel : Nat} {key : String} {v : Value} (hb : Blanks b) (hb' : Blanks b')
    (hfuel : key.toList.length < fuel) (hread : value? fuel t = some (v, b' ++ '\x7d' :: rest)) :
    entries? (fuel + 1) (b ++ '"' :: (key.toList.flatMap escaped ++ '"' :: ':' :: t)) =
      some ([(some key, v)], rest) := by
  have hkey := string?_flatMap key (':' :: t) hfuel
  have hquote : skipSpace (b ++ '"' :: (key.toList.flatMap escaped ++ '"' :: ':' :: t)) =
      '"' :: (key.toList.flatMap escaped ++ '"' :: ':' :: t) := skipSpace_append hb (by rintro c ⟨⟩; rfl)
  have hcolon : skipSpace (':' :: t) = ':' :: t := rfl
  have hclose : skipSpace (b' ++ '\x7d' :: rest) = '\x7d' :: rest := skipSpace_append hb' (by rintro c ⟨⟩; rfl)
  simp only [entries?, hquote, hkey, Option.bind_eq_bind, Option.bind_some, hcolon, hread, hclose]

/-- An entry with others behind it. -/
theorem entries?_more {t s' : List Char} {fuel : Nat} {key : String} {v : Value} {es : List (Option String × Value)}
    (hb : Blanks b) (hfuel : key.toList.length < fuel) (hread : value? fuel t = some (v, ',' :: s'))
    (hmore : entries? fuel s' = some (es, rest)) :
    entries? (fuel + 1) (b ++ '"' :: (key.toList.flatMap escaped ++ '"' :: ':' :: t)) =
      some ((some key, v) :: es, rest) := by
  have hkey := string?_flatMap key (':' :: t) hfuel
  have hquote : skipSpace (b ++ '"' :: (key.toList.flatMap escaped ++ '"' :: ':' :: t)) =
      '"' :: (key.toList.flatMap escaped ++ '"' :: ':' :: t) := skipSpace_append hb (by rintro c ⟨⟩; rfl)
  have hcolon : skipSpace (':' :: t) = ':' :: t := rfl
  have hcomma : skipSpace (',' :: s') = ',' :: s' := rfl
  simp only [entries?, hquote, hkey, Option.bind_eq_bind, Option.bind_some, hcolon, hread, hcomma, hmore]

theorem tableOf_map (entries : List (String × Value)) :
    tableOf (entries.map fun entry => (some entry.1, entry.2)) = .table entries := by
  have hkeys (f : Option String × Value → Option (String × Value)) (hf : ∀ key v, f (some key, v) = some (key, v)) :
      (entries.map fun entry => (some entry.1, entry.2)).mapM f = some entries := by
    induction entries with
    | nil => rfl
    | cons entry entries ih =>
      rw [List.map_cons, List.mapM_cons, hf, ih]
      rfl
  rw [tableOf, hkeys _ fun _ _ => rfl]

end Readers

theorem eq_nil_of_prettyItems {depth : Nat} {items : List Value} (h : prettyItems depth items = []) : items = [] := by
  cases items with
  | nil => rfl
  | cons v vs => cases h

theorem eq_nil_of_prettyEntries {depth : Nat} {entries : List (String × Value)} (h : prettyEntries depth entries = []) :
    entries = [] := by
  cases entries with
  | nil => rfl
  | cons entry entries => cases h

theorem opens_item {depth : Nat} {items : List Value} {l : String} {ls : List String}
    (h : prettyItems depth items = l :: ls) (s : List Char) : Opens (l.toList ++ s) := by
  cases items with
  | nil => cases h
  | cons v vs =>
    rw [prettyItems, List.cons.injEq] at h
    obtain ⟨c, t, ht, hc⟩ := opens_prettyAt depth v
    rw [← h.1, ht]
    exact ⟨c, _, rfl, hc⟩

theorem opens_entry {depth : Nat} {entries : List (String × Value)} {l : String} {ls : List String}
    (h : prettyEntries depth entries = l :: ls) (s : List Char) : Opens (l.toList ++ s) := by
  cases entries with
  | nil => cases h
  | cons entry entries =>
    rw [prettyEntries, List.cons.injEq] at h
    rw [← h.1, toList_entry]
    exact ⟨'"', _, rfl, by decide⟩

theorem toList_tail (closer : Char) (text : String) (h : text.toList = [closer]) (depth : Nat) (rest : List Char) :
    tailChars text depth [] ++ rest = '\n' :: (indent depth).toList ++ closer :: rest := by
  rw [tailChars, h, List.append_assoc]
  rfl

mutual

/-- **A tree is read from its text**, with blanks before it and something else behind it. -/
theorem value?_prettyAt (depth : Nat) (v : Value) (hv : holdsWords v = true) {b rest : List Char} (hb : Blanks b)
    (hs : Ends rest) {fuel : Nat} (hfuel : 2 * (prettyAt depth v).toList.length ≤ fuel) :
    value? fuel (b ++ ((prettyAt depth v).toList ++ rest)) = some (asRead reread v, rest) := by
  obtain ⟨fuel, rfl⟩ : ∃ k, fuel = k + 1 := by
    obtain ⟨c, t, ht, -⟩ := opens_prettyAt depth v
    rw [ht, List.length_cons] at hfuel
    exact ⟨fuel - 1, by omega⟩
  cases v with
  | null => exact value?_null hb fuel rest
  | unheld => exact value?_null hb fuel rest
  | bool flag => exact value?_bool hb fuel rest flag
  | integer n => exact value?_integer hv hb hs fuel
  | real x => exact value?_real x hb hs fuel
  | string s =>
    refine value?_string s hb ?_
    change 2 * (quoted s).toList.length ≤ fuel + 1 at hfuel
    omega
  | array items =>
    rw [prettyAt] at hfuel ⊢
    cases hitems : prettyItems (depth + 1) items with
    | nil =>
      obtain rfl := eq_nil_of_prettyItems hitems
      rw [toList_bracketed_nil]
      exact value?_emptyArray hb fuel rest
    | cons l ls =>
      rw [hitems, toList_bracketed] at hfuel
      have hlong : 2 * (l.toList.length + (tailChars "]" depth ls).length) ≤ fuel := by
        simp only [List.length_append, List.length_cons] at hfuel
        omega
      have hread := items?_prettyItems depth items hv hitems blanks_nil rest hlong
      rw [toList_bracketed, List.append_assoc, List.append_assoc, List.append_assoc]
      exact value?_array (s := l.toList ++ (tailChars "]" depth ls ++ rest)) hb (blanks_newline (depth + 1))
        (opens_item hitems _) hread
  | table entries =>
    rw [prettyAt] at hfuel ⊢
    cases hentries : prettyEntries (depth + 1) entries with
    | nil =>
      obtain rfl := eq_nil_of_prettyEntries hentries
      rw [toList_bracketed_nil]
      exact value?_emptyTable hb fuel rest
    | cons l ls =>
      rw [hentries, toList_bracketed] at hfuel
      have hlong : 2 * (l.toList.length + (tailChars "\x7d" depth ls).length) ≤ fuel := by
        simp only [List.length_append, List.length_cons] at hfuel
        omega
      have hread := entries?_prettyEntries depth entries hv hentries blanks_nil rest hlong
      rw [toList_bracketed, List.append_assoc, List.append_assoc, List.append_assoc]
      rw [asRead, ← tableOf_map]
      exact value?_table (s := l.toList ++ (tailChars "\x7d" depth ls ++ rest)) hb (blanks_newline (depth + 1))
        (opens_entry hentries _) hread

/-- The items of an array are read. -/
theorem items?_prettyItems (depth : Nat) (items : List Value) (hv : itemsHoldWords items = true) {l : String}
    {ls : List String} (hlines : prettyItems (depth + 1) items = l :: ls) {b : List Char} (hb : Blanks b)
    (rest : List Char) {fuel : Nat} (hfuel : 2 * (l.toList.length + (tailChars "]" depth ls).length) ≤ fuel) :
    items? fuel (b ++ (l.toList ++ (tailChars "]" depth ls ++ rest))) = some (asReadItems reread items, rest) := by
  have htail := length_le_tailChars "]" depth ls
  obtain ⟨fuel, rfl⟩ : ∃ k, fuel = k + 1 := ⟨fuel - 1, by omega⟩
  cases items with
  | nil => cases hlines
  | cons v vs =>
    rw [prettyItems, List.cons.injEq] at hlines
    obtain ⟨rfl, rfl⟩ := hlines
    rw [itemsHoldWords, Bool.and_eq_true] at hv
    have hlong : 2 * (prettyAt (depth + 1) v).toList.length ≤ fuel := by omega
    have hread := value?_prettyAt (depth + 1) v hv.1 hb
      (ends_tailChars "]" depth (prettyItems (depth + 1) vs) rest) hlong
    cases hrest : prettyItems (depth + 1) vs with
    | nil =>
      obtain rfl := eq_nil_of_prettyItems hrest
      rw [hrest, toList_tail ']' "]" rfl] at hread
      rw [toList_tail ']' "]" rfl]
      exact items?_last (blanks_newline depth) hread
    | cons l ls =>
      rw [hrest, tailChars] at hfuel
      have hmost : 2 * (l.toList.length + (tailChars "]" depth ls).length) ≤ fuel := by
        simp only [List.length_append, List.length_cons] at hfuel
        omega
      have hmore := items?_prettyItems depth vs hv.2 hrest (blanks_newline (depth + 1)) rest hmost
      rw [hrest, tailChars, List.cons_append, List.append_assoc, List.append_assoc] at hread
      rw [tailChars, List.cons_append, List.append_assoc, List.append_assoc]
      exact items?_more hread hmore

/-- The entries of a table are read. -/
theorem entries?_prettyEntries (depth : Nat) (entries : List (String × Value)) (hv : entriesHoldWords entries = true)
    {l : String} {ls : List String} (hlines : prettyEntries (depth + 1) entries = l :: ls) {b : List Char}
    (hb : Blanks b) (rest : List Char) {fuel : Nat}
    (hfuel : 2 * (l.toList.length + (tailChars "\x7d" depth ls).length) ≤ fuel) :
    entries? fuel (b ++ (l.toList ++ (tailChars "\x7d" depth ls ++ rest))) =
      some ((asReadEntries reread entries).map fun entry => (some entry.1, entry.2), rest) := by
  have htail := length_le_tailChars "\x7d" depth ls
  obtain ⟨fuel, rfl⟩ : ∃ k, fuel = k + 1 := ⟨fuel - 1, by omega⟩
  cases entries with
  | nil => cases hlines
  | cons entry entries =>
    obtain ⟨key, v⟩ := entry
    rw [prettyEntries, List.cons.injEq] at hlines
    obtain ⟨rfl, rfl⟩ := hlines
    rw [entriesHoldWords, Bool.and_eq_true] at hv
    have hkey := length_le_flatMap key.toList
    rw [toList_entry] at hfuel ⊢
    simp only [List.length_append, List.length_cons, List.length_nil] at hfuel
    have hlong : 2 * (prettyAt (depth + 1) v).toList.length ≤ fuel := by omega
    have hread := value?_prettyAt (depth + 1) v hv.1 blanks_space
      (ends_tailChars "\x7d" depth (prettyEntries (depth + 1) entries) rest) hlong
    have hshort : key.toList.length < fuel := by omega
    simp only [List.cons_append, List.append_assoc]
    cases hrest : prettyEntries (depth + 1) entries with
    | nil =>
      obtain rfl := eq_nil_of_prettyEntries hrest
      rw [hrest, toList_tail '\x7d' "\x7d" rfl] at hread
      rw [toList_tail '\x7d' "\x7d" rfl]
      exact entries?_last hb (blanks_newline depth) hshort hread
    | cons l ls =>
      rw [hrest, tailChars] at hfuel
      have hmost : 2 * (l.toList.length + (tailChars "\x7d" depth ls).length) ≤ fuel := by
        simp only [List.length_append, List.length_cons] at hfuel
        omega
      have hmore := entries?_prettyEntries depth entries hv.2 hrest (blanks_newline (depth + 1)) rest hmost
      simp only [hrest, tailChars, List.cons_append, List.append_assoc] at hread hmore ⊢
      exact entries?_more hb hshort hread hmore

end

/-- **What is read from the text of a tree** is the tree, up to the last digits of its doubles. -/
theorem read?_pretty {v : Value} (hv : holdsWords v = true) : read? (pretty v) = some (asRead reread v) := by
  have hends : Ends [] := by
    rintro c ⟨⟩
  have hread := value?_prettyAt 0 v hv blanks_nil hends
    (Nat.le_add_right (2 * (prettyAt 0 v).toList.length) 2)
  rw [List.nil_append, List.append_nil] at hread
  unfold read? pretty
  dsimp only
  rw [hread]
  rfl

/-- A tree whose doubles are read as they were written is read back. -/
theorem read?_pretty_of_isExact {v : Value} (hv : holdsWords v = true) (he : isExact v = true) :
    read? (pretty v) = some v := by
  rw [read?_pretty hv, asRead_of_isExact he]

end Trees

end Toolpath.Json
