import Toolpath.Json.Printer
import Toolpath.Json.Reader
import Toolpath.Proofs.Number.Product
import Toolpath.Proofs.Number.Shortest

/-!
# Numbers in JSON texts

`serde_json` writes a double with the fewest digits that read back when they are rounded once. It reads
the significand and the power of ten apart, and rounds both of them and their product or quotient, so it
may read another double than it wrote. It reads a double all the same, since none of these overflows.

* `numeral?_numeralChars`: the digits, the fraction and the exponent of a number.
* `Parts`, `exists_parts`: the parts of a decimal's text.
* `exists_scaled`: the digits of a double, scaled by their power of ten, do not overflow.
* `reread`, `numeral?_numberChars`: what is read from the text of a finite double.
-/

namespace Toolpath.Json

open Number

/-! ## Runs of digits -/

/-- Only decimal digits. -/
def Digits (ds : List Char) : Prop := ∀ c ∈ ds, c.isDigit = true

/-- A text in which a number does not go on. -/
def Ends (s : List Char) : Prop := ∀ c ∈ s.head?, c.isDigit = false ∧ c ≠ '.' ∧ c ≠ 'e' ∧ c ≠ 'E'

section Runs

variable {ds s : List Char} {n : Nat}

theorem digits_digitChars (n : Nat) : Digits (digitChars n) := fun _ hc =>
  Nat.isDigit_of_mem_toDigits (by decide) (by decide) hc

theorem digitChars_ne_nil (n : Nat) : digitChars n ≠ [] := Nat.toDigits_ne_nil

theorem Digits.append (h : Digits ds) (h' : Digits s) : Digits (ds ++ s) := fun c hc =>
  (List.mem_append.mp hc).elim (h c) (h' c)

theorem digits_zeros (n : Nat) : Digits (zeros n) := fun c hc => by
  rw [List.eq_of_mem_replicate hc]
  rfl

/-- A number that starts with a zero is zero. -/
theorem head?_digitChars (hn : 0 < n) : (digitChars n).head? ≠ some '0' := by
  induction n using Nat.strongRecOn with
  | ind n ih =>
    unfold digitChars at ih ⊢
    by_cases h : n < 10
    · rw [Nat.toDigits_of_lt_base h]
      have hdigit : ∀ d < 10, 0 < d → [d.digitChar].head? ≠ some '0' := by decide
      exact hdigit n h hn
    · rw [Nat.toDigits_of_base_le (by decide) (by omega), List.head?_append_of_ne_nil _ Nat.toDigits_ne_nil]
      exact ih (n / 10) (by omega) (by omega)

theorem ofDigitChars_digitChars (n : Nat) : Nat.ofDigitChars 10 (digitChars n) 0 = n :=
  Nat.ofDigitChars_toDigits (by decide) (by decide)

/-- A run of digits is taken as far as it goes. -/
theorem digits?_append (hds : Digits ds) (hne : ds ≠ []) (hs : ∀ c ∈ s.head?, c.isDigit = false) :
    digits? (ds ++ s) = some (ds, s) := by
  have htake : s.takeWhile Char.isDigit = [] ∧ s.dropWhile Char.isDigit = s := by
    cases s with
    | nil => exact ⟨rfl, rfl⟩
    | cons c s =>
      have hc := Bool.eq_false_iff.mp (hs c rfl)
      exact ⟨List.takeWhile_cons_of_neg hc, List.dropWhile_cons_of_neg hc⟩
  unfold digits?
  rw [List.takeWhile_append_of_pos hds, List.dropWhile_append_of_pos hds, htake.1, htake.2, List.append_nil]
  cases ds with
  | nil => exact absurd rfl hne
  | cons c ds => rfl

theorem le_ofDigitChars (ds : List Char) (n : Nat) : n ≤ Nat.ofDigitChars 10 ds n := by
  rw [Nat.ofDigitChars_eq_ofDigitChars_zero]
  exact Nat.le_add_right_of_le (Nat.le_mul_of_pos_left n (Nat.pow_pos (by decide)))

/-- Digits fit as long as the number that all of them make fits. -/
theorem pushDigit?_of_lt {c : Char} (h : Nat.ofDigitChars 10 (c :: ds) n < significandBound) :
    pushDigit? n c = some (10 * n + (c.toNat - '0'.toNat)) := by
  rw [Nat.ofDigitChars_cons] at h
  exact if_pos (Nat.lt_of_le_of_lt (le_ofDigitChars ds _) h)

theorem wholeDigits_cons (n : Nat) (c : Char) (ds : List Char) :
    wholeDigits n (c :: ds) =
      match pushDigit? n c with
      | some m => wholeDigits m ds
      | none => (n, ds.length + 1) := by
  exact rfl

theorem fractionDigits_cons (n : Nat) (c : Char) (ds : List Char) :
    fractionDigits n (c :: ds) =
      match pushDigit? n c with
      | some m => ((fractionDigits m ds).1, (fractionDigits m ds).2 + 1)
      | none => (n, 0) := by
  exact rfl

theorem wholeDigits_of_lt (h : Nat.ofDigitChars 10 ds n < significandBound) :
    wholeDigits n ds = (Nat.ofDigitChars 10 ds n, 0) := by
  induction ds generalizing n with
  | nil => rfl
  | cons c ds ih =>
    rw [wholeDigits_cons, pushDigit?_of_lt h]
    rw [Nat.ofDigitChars_cons] at h ⊢
    exact ih h

theorem fractionDigits_of_lt (h : Nat.ofDigitChars 10 ds n < significandBound) :
    fractionDigits n ds = (Nat.ofDigitChars 10 ds n, ds.length) := by
  induction ds generalizing n with
  | nil => rfl
  | cons c ds ih =>
    rw [fractionDigits_cons, pushDigit?_of_lt h]
    rw [Nat.ofDigitChars_cons] at h ⊢
    dsimp only
    rw [ih h, List.length_cons]

end Runs

/-! ## Numbers -/

/-- A fraction with its point, if it has digits. -/
def fractionChars : List Char → List Char
  | [] => []
  | fs => '.' :: fs

/-- An exponent with its mark and its sign. -/
def powerChars : Option Int → List Char
  | none => []
  | some p => 'e' :: (if p < 0 then '-' else '+') :: digitChars p.natAbs

/-- The text of a number by its parts: the digits before and after the point, and the exponent. -/
def numeralChars (negative : Bool) (ws fs : List Char) (p : Option Int) : List Char :=
  signChars negative ++ (ws ++ (fractionChars fs ++ powerChars p))

/-- The number that the parts of a text make. -/
def Numeral.ofParts (negative : Bool) (ws fs : List Char) (p : Option Int) : Numeral where
  negative := negative
  significand := Nat.ofDigitChars 10 (ws ++ fs) 0
  exponent := p.getD 0 - fs.length
  whole := fs.isEmpty && p.isNone

/-- The digits of a number in their usual form. -/
structure Proper (ws fs : List Char) : Prop where
  whole : Digits ws
  fraction : Digits fs
  ne_nil : ws ≠ []
  /-- A zero in front stands alone. -/
  head : ws.head? = some '0' → ws.length = 1
  lt : Nat.ofDigitChars 10 (ws ++ fs) 0 < significandBound

section Numbers

variable {negative : Bool} {ws fs s : List Char} {p : Option Int}

theorem fraction?_fractionChars {n : Nat} (hfs : Digits fs) (hlt : Nat.ofDigitChars 10 fs n < significandBound)
    (hs : ∀ c ∈ s.head?, c.isDigit = false ∧ c ≠ '.') :
    fraction? n (fractionChars fs ++ s) =
      some ((Nat.ofDigitChars 10 fs n, fs.length, !fs.isEmpty), s) := by
  cases fs with
  | nil =>
    cases s with
    | nil => rfl
    | cons c s =>
      have hc := (hs c rfl).2
      change fraction? n (c :: s) = _
      unfold fraction?
      split
      · rename_i heq
        exact absurd (List.cons.inj heq).1 hc
      · rfl
  | cons c fs =>
    have hdigits := digits?_append hfs (List.cons_ne_nil c fs) fun c hc => (hs c hc).1
    have hrun := fractionDigits_of_lt hlt
    simp only [fractionChars, List.cons_append, fraction?] at hdigits ⊢
    simp only [hdigits, Option.bind_eq_bind, Option.bind_some, hrun]
    rfl

theorem power?_powerChars (hs : Ends s) :
    power? (powerChars p ++ s) = some ((p.getD 0, p.isSome), s) := by
  cases p with
  | none =>
    cases s with
    | nil => rfl
    | cons c s =>
      obtain ⟨-, -, he, hE⟩ := hs c rfl
      change power? (c :: s) = _
      simp only [power?, he, hE, decide_false, Bool.or_self, Bool.false_eq_true, if_false]
      rfl
  | some p =>
    have hdigits := digits?_append (digits_digitChars p.natAbs) (digitChars_ne_nil _) fun c hc => (hs c hc).1
    have hvalue : natOfDigits (digitChars p.natAbs) = p.natAbs := ofDigitChars_digitChars p.natAbs
    by_cases hp : p < 0
    · have hsign : splitSign ('-' :: (digitChars p.natAbs ++ s)) = (true, digitChars p.natAbs ++ s) := rfl
      simp only [powerChars, if_pos hp, List.cons_append, power?, hsign, hdigits, decide_true, Bool.true_or, if_true,
        Option.bind_eq_bind, Option.bind_some, hvalue]
      rw [show -((p.natAbs : Nat) : Int) = p by omega]
      rfl
    · have hsign : splitSign ('+' :: (digitChars p.natAbs ++ s)) = (false, digitChars p.natAbs ++ s) := rfl
      simp only [powerChars, if_neg hp, List.cons_append, power?, hsign, hdigits, decide_true, Bool.true_or, if_true,
        Option.bind_eq_bind, Option.bind_some, hvalue, Bool.false_eq_true, if_false]
      rw [show ((p.natAbs : Nat) : Int) = p by omega]
      rfl

theorem ends_powerChars (hs : Ends s) : ∀ c ∈ (powerChars p ++ s).head?, c.isDigit = false ∧ c ≠ '.' := by
  cases p with
  | none => exact fun c hc => ⟨(hs c hc).1, (hs c hc).2.1⟩
  | some p =>
    rintro c hc
    cases hc
    decide

theorem head?_signChars (h : s.head? ≠ some '-') :
    (signChars negative ++ s).head? = some '-' ↔ negative = true := by
  cases negative with
  | true => exact iff_of_true rfl rfl
  | false => exact iff_of_false h Bool.false_ne_true

theorem drop_signChars (s : List Char) :
    (if negative = true then (signChars negative ++ s).drop 1 else signChars negative ++ s) = s := by
  cases negative <;> rfl

/-- **A number is read part by part.** -/
theorem numeral?_numeralChars (h : Proper ws fs) (hs : Ends s) :
    numeral? (numeralChars negative ws fs p ++ s) = some (.ofParts negative ws fs p, s) := by
  have hpower := ends_powerChars (p := p) hs
  have hfraction : ∀ c ∈ (fractionChars fs ++ (powerChars p ++ s)).head?, c.isDigit = false := by
    cases fs with
    | nil => exact fun c hc => (hpower c hc).1
    | cons f fs =>
      rintro c hc
      cases hc
      rfl
  have hdigits := digits?_append h.whole h.ne_nil hfraction
  have happend : Nat.ofDigitChars 10 fs (Nat.ofDigitChars 10 ws 0) = Nat.ofDigitChars 10 (ws ++ fs) 0 :=
    (Nat.ofDigitChars_append 0).symm
  have hlt := h.lt
  rw [← happend] at hlt
  have hwhole := wholeDigits_of_lt (Nat.lt_of_le_of_lt (le_ofDigitChars fs _) hlt)
  have hrest := fraction?_fractionChars h.fraction hlt hpower
  have htext : numeralChars negative ws fs p ++ s =
      signChars negative ++ (ws ++ (fractionChars fs ++ (powerChars p ++ s))) := by
    simp only [numeralChars, List.append_assoc]
  have hminus : (ws ++ (fractionChars fs ++ (powerChars p ++ s))).head? ≠ some '-' := by
    intro hminus
    rw [List.head?_append_of_ne_nil _ h.ne_nil] at hminus
    exact absurd (h.whole '-' (List.mem_of_head? hminus)) (by decide)
  have hhead : ¬ (decide (ws.head? = some '0') && decide (ws.length ≠ 1)) = true := by
    rw [Bool.and_eq_true, decide_eq_true_iff, decide_eq_true_iff]
    exact fun hzero => hzero.2 (h.head hzero.1)
  rw [htext]
  unfold numeral?
  dsimp only
  simp only [head?_signChars hminus, drop_signChars, hdigits, Option.bind_eq_bind, Option.bind_some, if_neg hhead, hwhole, hrest,
    power?_powerChars hs, happend]
  refine congrArg some (Prod.ext ?_ rfl)
  rw [Numeral.mk.injEq]
  refine ⟨?_, rfl, ?_, ?_⟩
  · cases negative <;> rfl
  · show ((0 : Nat) : Int) - fs.length + p.getD 0 = p.getD 0 - fs.length
    omega
  · cases fs <;> cases p <;> rfl

end Numbers

/-! ## Decimals -/

/-- The parts of the text of a decimal. They make the decimal, unless it is written out without an exponent: then its
fraction may be one zero more. -/
structure Parts (d : Decimal) (ws fs : List Char) (p : Option Int) : Prop where
  text : decimalText d = ws ++ (fractionChars fs ++ powerChars p)
  proper : Proper ws fs
  pointed : (fs.isEmpty && p.isNone) = false
  value : (Nat.ofDigitChars 10 (ws ++ fs) 0 = d.digits ∧ p.getD 0 - fs.length = d.exponent) ∨
    p.getD 0 - fs.length < 0

section Decimals

variable {d : Decimal}

theorem fractionChars_of_ne_nil {fs : List Char} (h : fs ≠ []) : fractionChars fs = '.' :: fs := by
  cases fs with
  | nil => exact absurd rfl h
  | cons c fs => rfl

/-- The digits of a decimal with a point among them. -/
theorem parts_of_append {ws fs : List Char} {p : Option Int} (hd : 0 < d.digits) (hle : d.digits ≤ 10 ^ 18)
    (hne : ws ≠ []) (h : ws ++ fs = digitChars d.digits)
    (htext : decimalText d = ws ++ (fractionChars fs ++ powerChars p))
    (hpointed : (fs.isEmpty && p.isNone) = false) (hexponent : p.getD 0 - fs.length = d.exponent) :
    Parts d ws fs p := by
  have hvalue : Nat.ofDigitChars 10 (ws ++ fs) 0 = d.digits := by rw [h, ofDigitChars_digitChars]
  refine ⟨htext, ⟨fun c hc => ?_, fun c hc => ?_, hne, fun hzero => ?_, ?_⟩, hpointed, .inl ⟨hvalue, hexponent⟩⟩
  · exact digits_digitChars d.digits c (h ▸ List.mem_append_left fs hc)
  · exact digits_digitChars d.digits c (h ▸ List.mem_append_right ws hc)
  · have happend : (ws ++ fs).head? = ws.head? := List.head?_append_of_ne_nil ws hne
    rw [← happend, h] at hzero
    exact absurd hzero (head?_digitChars hd)
  · rw [hvalue]
    exact Nat.lt_of_le_of_lt hle (by decide)

/-- Written out in full, a whole number gets a zero after the point. -/
theorem parts_whole (hd : 0 < d.digits) (he : 0 ≤ d.exponent)
    (hpower : d.exponent + (digitChars d.digits).length - 1 < 16) (htext : decimalText d = positional d ++ ['.', '0']) :
    Parts d (digitChars d.digits ++ zeros d.exponent.toNat) ['0'] none := by
  have hne := digitChars_ne_nil d.digits
  have hvalue : Nat.ofDigitChars 10 (digitChars d.digits ++ zeros d.exponent.toNat ++ ['0']) 0 =
      10 * (10 ^ d.exponent.toNat * d.digits) := by
    rw [Nat.ofDigitChars_append, Nat.ofDigitChars_append, ofDigitChars_digitChars, zeros,
      Nat.ofDigitChars_replicate_zero]
    rfl
  refine ⟨?_, ⟨(digits_digitChars _).append (digits_zeros _), digits_zeros 1, ?_, ?_, ?_⟩, rfl, .inr (by decide)⟩
  · rw [htext, positional, if_pos he]
    rfl
  · exact List.append_ne_nil_of_left_ne_nil hne _
  · intro hzero
    rw [List.head?_append_of_ne_nil _ hne] at hzero
    exact absurd hzero (head?_digitChars hd)
  · rw [hvalue]
    have hlength : (digitChars d.digits).length + d.exponent.toNat ≤ 16 := by omega
    have hdigits : d.digits < 10 ^ (digitChars d.digits).length :=
      (Nat.length_toDigits_le_iff (by decide) (List.length_pos_of_ne_nil hne)).mp (Nat.le_refl _)
    calc 10 * (10 ^ d.exponent.toNat * d.digits)
      _ ≤ 10 * (10 ^ d.exponent.toNat * 10 ^ (digitChars d.digits).length) := by gcongr
      _ = 10 * 10 ^ ((digitChars d.digits).length + d.exponent.toNat) := by rw [Nat.pow_add, Nat.mul_comm (10 ^ _)]
      _ ≤ 10 * 10 ^ 16 := Nat.mul_le_mul_left _ (Nat.pow_le_pow_right (by decide) hlength)
      _ < significandBound := by decide

/-- Written out in full, a number of at least one has its point among its digits. -/
theorem parts_among (hd : 0 < d.digits) (hle : d.digits ≤ 10 ^ 18) (he : d.exponent < 0)
    (hplaces : (-d.exponent).toNat < (digitChars d.digits).length) (htext : decimalText d = positional d) :
    ∃ ws fs p, Parts d ws fs p := by
  have hws : (digitChars d.digits).take ((digitChars d.digits).length - (-d.exponent).toNat) ≠ [] := by
    refine List.ne_nil_of_length_pos ?_
    rw [List.length_take]
    omega
  have hlength : ((digitChars d.digits).drop ((digitChars d.digits).length - (-d.exponent).toNat)).length =
      (-d.exponent).toNat := by
    rw [List.length_drop]
    omega
  have hfs := List.ne_nil_of_length_pos (Nat.lt_of_lt_of_eq (by omega : 0 < (-d.exponent).toNat) hlength.symm)
  refine ⟨_, _, none, parts_of_append hd hle hws (List.take_append_drop _ _) ?_ ?_ ?_⟩
  · rw [htext, positional, if_neg (Int.not_le.mpr he), fractionChars_of_ne_nil hfs]
    simp only [if_pos hplaces, powerChars, List.append_nil]
  · rw [List.isEmpty_eq_false_iff.mpr hfs, Bool.false_and]
  · rw [hlength, Option.getD_none]
    omega

/-- Written out in full, a number below one has all its digits after the point. -/
theorem parts_below (hle : d.digits ≤ 10 ^ 18) (he : d.exponent < 0)
    (hplaces : ¬ (-d.exponent).toNat < (digitChars d.digits).length) (htext : decimalText d = positional d) :
    Parts d ['0'] (zeros ((-d.exponent).toNat - (digitChars d.digits).length) ++ digitChars d.digits) none := by
  have hne : zeros ((-d.exponent).toNat - (digitChars d.digits).length) ++ digitChars d.digits ≠ [] :=
    List.append_ne_nil_of_right_ne_nil _ (digitChars_ne_nil _)
  have hvalue : Nat.ofDigitChars 10
      (['0'] ++ (zeros ((-d.exponent).toNat - (digitChars d.digits).length) ++ digitChars d.digits)) 0 = d.digits := by
    rw [Nat.ofDigitChars_append, Nat.ofDigitChars_append]
    have hzeros : Nat.ofDigitChars 10 (zeros ((-d.exponent).toNat - (digitChars d.digits).length))
        (Nat.ofDigitChars 10 ['0'] 0) = 0 := by
      rw [zeros, Nat.ofDigitChars_replicate_zero]
      rfl
    rw [hzeros, ofDigitChars_digitChars]
  refine ⟨?_, ⟨digits_zeros 1, (digits_zeros _).append (digits_digitChars _), List.cons_ne_nil _ _, fun _ => rfl, ?_⟩,
    ?_, .inl ⟨hvalue, ?_⟩⟩
  · rw [htext, positional, if_neg (Int.not_le.mpr he), fractionChars_of_ne_nil hne]
    simp only [if_neg hplaces, powerChars, List.append_nil]
    rfl
  · rw [hvalue]
    exact Nat.lt_of_le_of_lt hle (by decide)
  · rw [List.isEmpty_eq_false_iff.mpr hne, Bool.false_and]
  · rw [List.length_append, zeros, List.length_replicate, Option.getD_none]
    omega

/-- With an exponent, a number has its point after its first digit. -/
theorem parts_exponential (hd : 0 < d.digits) (hle : d.digits ≤ 10 ^ 18) (htext : decimalText d = exponential d) :
    ∃ ws fs p, Parts d ws fs p := by
  obtain ⟨c, rest, hds⟩ := List.exists_cons_of_ne_nil (digitChars_ne_nil d.digits)
  refine ⟨[c], rest, some (d.exponent + rest.length), parts_of_append hd hle (List.cons_ne_nil _ _) hds.symm ?_ ?_ ?_⟩
  · have hpower : d.exponent + ((c :: rest).length : Nat) - 1 = d.exponent + rest.length := by
      rw [List.length_cons]
      omega
    simp only [htext, exponential, hds, hpower]
    cases rest <;> rfl
  · rw [Option.isNone_some, Bool.and_false]
  · rw [Option.getD_some]
    omega

/-- **The parts of a decimal's text.** -/
theorem exists_parts (hd : 0 < d.digits) (hle : d.digits ≤ 10 ^ 18) : ∃ ws fs p, Parts d ws fs p := by
  by_cases hpower : (decide (-5 ≤ d.exponent + (digitChars d.digits).length - 1) &&
      decide (d.exponent + (digitChars d.digits).length - 1 < 16)) = true
  · by_cases he : 0 ≤ d.exponent
    · have hshort := of_decide_eq_true (Bool.and_eq_true_iff.mp hpower).2
      exact ⟨_, _, _, parts_whole hd he hshort (by simp only [decimalText, if_pos hpower, if_pos he])⟩
    · have htext : decimalText d = positional d := by simp only [decimalText, if_pos hpower, if_neg he]
      by_cases hplaces : (-d.exponent).toNat < (digitChars d.digits).length
      · exact parts_among hd hle (Int.not_le.mp he) hplaces htext
      · exact ⟨_, _, _, parts_below hle (Int.not_le.mp he) hplaces htext⟩
  · exact parts_exponential hd hle (by simp only [decimalText, if_neg hpower])

end Decimals

/-! ## Values -/

section Values

variable {x : Float} {m e : Nat} {q : Int}

theorem isInf_of_isFinite (h : x.isFinite = true) : x.isInf = false := by
  change x.toModel.unpack.isFinite = true at h
  change x.toModel.unpack.isInf = false
  cases hx : x.toModel.unpack with
  | infinity s =>
    rw [hx] at h
    cases h
  | _ => rfl

/-- Dividing by a power of ten always gives a double. -/
theorem scaleTen?_of_neg (fuel : Nat) (x : Float) {e : Int} (he : e < 0) : ∃ y, scaleTen? fuel x e = some y := by
  induction fuel generalizing x e with
  | zero => exact ⟨x, rfl⟩
  | succ fuel ih =>
    unfold scaleTen?
    split
    · dsimp only
      rw [if_neg (Int.not_le.mpr he)]
      exact ⟨_, rfl⟩
    · rename_i hlarge
      split
      · exact ⟨_, rfl⟩
      · rw [if_neg (Int.not_le.mpr he)]
        exact ih _ (by omega)

theorem scaleTen?_of_isFinite (fuel : Nat) (he : e ≤ 308) (h : (x * Float.ofScientific 1 false e).isFinite = true) :
    scaleTen? (fuel + 1) x e = some (x * Float.ofScientific 1 false e) := by
  unfold scaleTen?
  rw [if_pos (by omega)]
  dsimp only
  rw [if_pos (Int.natCast_nonneg e), Int.natAbs_natCast, isInf_of_isFinite h]
  rfl

theorem Numeral.exists_value {n : Numeral} (hw : n.whole = false)
    (h : n.exponent < 0 ∨ ∃ e : Nat, n.exponent = e ∧ e ≤ 308 ∧
      (Float.ofNat n.significand * Float.ofScientific 1 false e).isFinite = true) : ∃ y, n.value = .real y := by
  have hscaled : ∃ y, scaleTen? 4 (Float.ofNat n.significand) n.exponent = some y := by
    rcases h with h | ⟨e, he, hle, hfinite⟩
    · exact scaleTen?_of_neg 4 _ h
    · exact ⟨_, he ▸ scaleTen?_of_isFinite 3 hle hfinite⟩
  obtain ⟨y, hy⟩ := hscaled
  refine ⟨signed n.negative y, ?_⟩
  simp only [Numeral.value, hw, hy, Bool.false_and, Bool.false_eq_true, if_false]

/-- The digits of the greatest doubles, one by one. -/
theorem isFinite_scaled_greatest : ∀ i ∈ List.range 5, let d := shortest .toEven (2 ^ 53 - 1 - i) 971
    0 ≤ d.exponent ∧ d.exponent ≤ 308 ∧
      (Float.ofNat d.digits * Float.ofScientific 1 false d.exponent.toNat).isFinite = true := by
  decide +kernel

/-- The digits of all other doubles are below the ceiling. -/
theorem shortest_toRat_le_ceiling (hm : 0 < m) (hlt : m < 2 ^ 53) (hhigh : q ≤ 971)
    (hsmall : q = 971 → m ≤ 2 ^ 53 - 6) : (shortest .toEven m q).toRat ≤ ceiling := by
  have hbound := shortest_toRat_le .toEven hm hlt hhigh
  have hceiling : (ceiling : ℚ) = (2 ^ 54 - 11) * 2 ^ (970 : Int) := by
    have hdigits : ((2 ^ 54 - 11 : Nat) : ℚ) = 2 ^ 54 - 11 := by norm_num
    rw [ceiling, Nat.cast_mul, hdigits, Nat.cast_pow, Nat.cast_ofNat]
    exact congrArg _ (zpow_natCast 2 970).symm
  have hdouble : (2 : ℚ) ^ (971 : Int) = 2 * 2 ^ (970 : Int) := by
    rw [show (971 : Int) = 1 + 970 from rfl, zpow_add₀ two_ne_zero, zpow_one]
  have hpow : q < 971 → (2 : ℚ) ^ q ≤ 2 ^ (970 : Int) := fun hq => zpow_le_zpow_right₀ one_le_two (by omega)
  have hpos : (0 : ℚ) < 2 ^ (970 : Int) := by positivity
  rw [hceiling]
  refine hbound.trans ?_
  generalize (2 : ℚ) ^ (970 : Int) = u at hdouble hpow hpos ⊢
  rcases Int.lt_or_eq_of_le hhigh with hq | rfl
  · have hm' : (m : ℚ) ≤ 2 ^ 53 := by exact_mod_cast Nat.le_of_lt hlt
    calc (m : ℚ) * 2 ^ q + u
      _ ≤ 2 ^ 53 * u + u := by gcongr; exact hpow hq
      _ ≤ (2 ^ 54 - 11) * u := by linarith only [hpos]
  · have hm' : (m : ℚ) + 6 ≤ 2 ^ 53 := by exact_mod_cast Nat.add_le_of_le_sub (by decide) (hsmall rfl)
    have hscaled := mul_le_mul_of_nonneg_right hm' hpos.le
    rw [hdouble]
    linarith only [hscaled]

/-- **The digits of a double are read without overflow.** -/
theorem exists_scaled (hm : 0 < m) (hlt : m < 2 ^ 53) (hlow : -1074 ≤ q) (hhigh : q ≤ 971)
    (he : 0 ≤ (shortest .toEven m q).exponent) : ∃ e : Nat, (shortest .toEven m q).exponent = e ∧ e ≤ 308 ∧
      (Float.ofNat (shortest .toEven m q).digits * Float.ofScientific 1 false e).isFinite = true := by
  by_cases hgreat : q = 971 ∧ 2 ^ 53 - 6 < m
  · obtain ⟨rfl, hm6⟩ := hgreat
    have h := isFinite_scaled_greatest (2 ^ 53 - 1 - m) (List.mem_range.mpr (by omega))
    rw [show 2 ^ 53 - 1 - (2 ^ 53 - 1 - m) = m by omega] at h
    obtain ⟨hnonneg, hle, hfinite⟩ := h
    exact ⟨_, (Int.toNat_of_nonneg hnonneg).symm, by omega, hfinite⟩
  · have hbound := shortest_toRat_le_ceiling hm hlt hhigh fun hq => by omega
    have hdigits := (shortest_digits .toEven hm hlt hhigh hlow).1
    obtain ⟨e, he⟩ := Int.eq_ofNat_of_zero_le he
    generalize shortest .toEven m q = d at hbound hdigits he
    rw [Decimal.toRat, he, zpow_natCast] at hbound
    have hnat : d.digits * 10 ^ e ≤ ceiling := by exact_mod_cast hbound
    have hlt := lt_of_pow_le_ceiling (Nat.le_trans (Nat.le_mul_of_pos_left _ hdigits) hnat)
    exact ⟨e, he, by omega, isFinite_scaled hdigits hnat⟩

end Values

/-! ## Doubles -/

/-- The characters of a double. -/
def numberChars (x : Float) : List Char :=
  match shape x with
  | .nan | .infinite _ => ['n', 'u', 'l', 'l']
  | .finite negative m q =>
    signChars negative ++ if m = 0 then ['0', '.', '0'] else decimalText (shortest .toEven m q)

theorem toList_numberText (x : Float) : (numberText x).toList = numberChars x := by
  have hnull : "null".toList = ['n', 'u', 'l', 'l'] := rfl
  unfold numberText numberChars
  cases shape x with
  | nan | infinite => exact hnull
  | finite => exact String.toList_ofList

theorem numberText_of_not_isFinite {x : Float} (h : ¬ x.isFinite = true) : numberText x = "null" := by
  unfold numberText
  split
  · rfl
  · rfl
  · rename_i negative m e hs
    exact absurd (isFinite_iff_shape.mpr ⟨negative, m, e, hs⟩) h

/-- The double that is read from the characters of a double. -/
def reread (x : Float) : Float :=
  match numeral? (numberChars x) with
  | some (n, _) =>
    match n.value with
    | .real y => y
    | _ => x
  | none => x

section Doubles

variable {x : Float}

theorem shape_bounds {negative : Bool} {m : Nat} {q : Int} (h : shape x = .finite negative m q) :
    m < 2 ^ 53 ∧ -1074 ≤ q ∧ q ≤ 971 := by
  have hpow : twoTo 52 = 2 ^ 52 := rfl
  have hlow : minExponent = -1074 := rfl
  unfold shape at h
  dsimp only at h
  have hfraction : x.toBits.toNat % twoTo 52 < twoTo 52 := Nat.mod_lt _ (by decide)
  have hbiased : x.toBits.toNat / twoTo 52 % twoTo 11 < 2048 := Nat.mod_lt _ (by decide)
  generalize x.toBits.toNat % twoTo 52 = fraction at h hfraction
  generalize x.toBits.toNat / twoTo 52 % twoTo 11 = biased at h hbiased
  split at h
  · split at h <;> cases h
  · split at h
    · obtain ⟨-, rfl, rfl⟩ := Shape.finite.inj h
      omega
    · obtain ⟨-, rfl, rfl⟩ := Shape.finite.inj h
      omega

/-- The characters of a finite double by their parts. -/
theorem exists_numeralChars (hx : x.isFinite = true) : ∃ negative ws fs p,
    numberChars x = numeralChars negative ws fs p ∧ Proper ws fs ∧
      ∃ y, (Numeral.ofParts negative ws fs p).value = .real y := by
  obtain ⟨negative, m, q, hshape⟩ := isFinite_iff_shape.mp hx
  obtain ⟨hlt, hlow, hhigh⟩ := shape_bounds hshape
  have htext : numberChars x =
      signChars negative ++ if m = 0 then ['0', '.', '0'] else decimalText (shortest .toEven m q) := by
    unfold numberChars
    rw [hshape]
  by_cases hm : m = 0
  · refine ⟨negative, ['0'], ['0'], none, htext.trans (congrArg _ (if_pos hm)),
      ⟨digits_zeros 1, digits_zeros 1, List.cons_ne_nil _ _, fun _ => rfl, by decide⟩, ?_⟩
    exact Numeral.exists_value rfl (.inl (by decide : (-1 : Int) < 0))
  · have hpos := Nat.pos_of_ne_zero hm
    obtain ⟨hdigits, hle⟩ := shortest_digits .toEven hpos hlt hhigh hlow
    obtain ⟨ws, fs, p, hparts⟩ := exists_parts hdigits hle
    refine ⟨negative, ws, fs, p, htext.trans (congrArg _ ((if_neg hm).trans hparts.text)), hparts.proper,
      Numeral.exists_value hparts.pointed ?_⟩
    have hscaled := exists_scaled hpos hlt hlow hhigh
    rcases hparts.value with ⟨hsignificand, hexponent⟩ | hneg
    · by_cases he : (shortest .toEven m q).exponent < 0
      · exact .inl (lt_of_eq_of_lt hexponent he)
      · obtain ⟨e, he, hle, hfinite⟩ := hscaled (Int.not_lt.mp he)
        refine .inr ⟨e, hexponent.trans he, hle, ?_⟩
        change (Float.ofNat (Nat.ofDigitChars 10 (ws ++ fs) 0) * _).isFinite = true
        rwa [hsignificand]
    · exact .inl hneg

/-- **A finite double is read from its text as a double**, whatever comes behind. -/
theorem numeral?_numberChars (hx : x.isFinite = true) : ∃ n : Numeral, n.value = .real (reread x) ∧
    ∀ s, Ends s → numeral? (numberChars x ++ s) = some (n, s) := by
  obtain ⟨negative, ws, fs, p, htext, hproper, y, hy⟩ := exists_numeralChars hx
  have hread (s : List Char) (hs : Ends s) :
      numeral? (numberChars x ++ s) = some (Numeral.ofParts negative ws fs p, s) := by
    rw [htext, numeral?_numeralChars hproper hs]
  have hown := hread [] nofun
  rw [List.append_nil] at hown
  have hreread : reread x = y := by
    rw [reread, hown]
    simp only [hy]
  exact ⟨_, hreread ▸ hy, hread⟩

end Doubles

end Toolpath.Json
