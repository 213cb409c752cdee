import Toolpath.Proofs.Block.Shape
import Toolpath.Proofs.Block.Skipping
import Toolpath.Proofs.Scanner.Coverage

/-!
# Comments

The first opening bracket or semicolon of a line begins a comment, wherever `Tokenizer.next` meets it:
also behind an address letter, within a number or among the blanks between its digits. What stands
before it is read as if the line ended there, and the rest of the line adds one comment and nothing
else.

* `Text.Trimmed`, `Text.trim_trimmed`: a text without the blanks around it.
* `Cut`, `cut_code`: how a comment cuts a line.
* `numerals_append`, `numberText_append`, `item_append`, `next?_followedBy`, `toList_followedBy`: an item does
  not see the comment behind it.
* `Draft.pushAll_comment`, `Block.ofTokens_comment`: what a comment adds to a line.
* `Block.ofLine_cut`: all of it, for every line.
-/

namespace Toolpath

/-! ## Blanks around a text -/

namespace Text

/-- A text without the blanks at both ends. -/
structure Trimmed (s t : List Char) : Prop where
  middle : ∃ front back, s = front ++ t ++ back ∧ ∀ c ∈ front ++ back, isBlank c = true
  head : ∀ c ∈ t.head?, isBlank c = false
  last : ∀ c ∈ t.getLast?, isBlank c = false

theorem isBlank_of_mem_takeWhile {s : List Char} : ∀ c ∈ s.takeWhile isBlank, isBlank c = true :=
  List.all_eq_true.mp List.all_takeWhile

theorem head?_skipBlanks (s : List Char) : ∀ c ∈ (skipBlanks s).head?, isBlank c = false := by
  intro c hc
  obtain ⟨r, hr⟩ := List.head?_eq_some_iff.mp hc
  exact isBlank_of_skipBlanks hr

/-- Only blanks are cut off behind a text. -/
theorem trim_append (s : List Char) :
    ∃ back, trim s ++ back = skipBlanks s ∧ ∀ c ∈ back, isBlank c = true := by
  refine ⟨((skipBlanks s).reverse.takeWhile isBlank).reverse, ?_, fun c hc => ?_⟩
  · have hback : (skipBlanks s).reverse.takeWhile isBlank ++ skipBlanks (skipBlanks s).reverse =
        (skipBlanks s).reverse := List.takeWhile_append_dropWhile
    rw [trim, ← List.reverse_append, hback, List.reverse_reverse]
  · exact isBlank_of_mem_takeWhile c (List.mem_reverse.mp hc)

theorem trim_trimmed (s : List Char) : Trimmed s (trim s) := by
  obtain ⟨back, hback, hblank⟩ := trim_append s
  refine ⟨⟨s.takeWhile isBlank, back, ?_, ?_⟩, fun c hc => ?_, ?_⟩
  · rw [List.append_assoc, hback]
    exact List.takeWhile_append_dropWhile.symm
  · exact List.forall_mem_append.mpr ⟨isBlank_of_mem_takeWhile, hblank⟩
  · refine head?_skipBlanks s c ?_
    rw [← hback, List.head?_append, Option.mem_def.mp hc]
    rfl
  · rw [trim, List.getLast?_reverse]
    exact head?_skipBlanks _

theorem skipBlanks_append_of_nil {s : List Char} (h : skipBlanks s = []) (t : List Char) :
    skipBlanks (s ++ t) = skipBlanks t := by
  rw [skipBlanks] at h
  rw [skipBlanks, List.dropWhile_append, h]
  rfl

theorem skipBlanks_append_of_cons {s r : List Char} {c : Char} (h : skipBlanks s = c :: r) (t : List Char) :
    skipBlanks (s ++ t) = c :: (r ++ t) := by
  rw [skipBlanks] at h
  rw [skipBlanks, List.dropWhile_append, h]
  rfl

end Text

open Text

/-! ## Lines with a comment -/

namespace Scanner

/-- What a comment encloses behind its opener, and what follows on the line. A bracket closes at the first
closing bracket, and all else runs to the end of the line. -/
inductive Encloses : Char → List Char → List Char → Prop where
  | toEnd (body : List Char) : Encloses ';' body []
  | closed {body : List Char} (h : ')' ∉ body) (rest : List Char) : Encloses '(' body (')' :: rest)
  | unclosed {body : List Char} (h : ')' ∉ body) : Encloses '(' body []

/-- How a comment cuts a line: the text before the first opener, and the comment without the blanks around
it, if there is one. -/
inductive Cut : List Char → List Char → Option (List Char) → Prop where
  | bare {code : List Char} (hc : ∀ c ∈ code, isOpener c = false) : Cut code code none
  | comment {code body rest text : List Char} {opener : Char} (hc : ∀ c ∈ code, isOpener c = false)
      (hb : Encloses opener body rest) (ht : Trimmed body text) :
      Cut (code ++ opener :: (body ++ rest)) code (some text)

/-- What stands before the comment of a line. -/
def code (s : List Char) : List Char := s.takeWhile fun c => !isOpener c

/-- The comment of a line. -/
def comment? (s : List Char) : Option String :=
  match s.dropWhile fun c => !isOpener c with
  | [] => none
  | c :: r => some (commentText c r)

theorem not_isOpener_of_mem_code {s : List Char} : ∀ c ∈ code s, isOpener c = false := by
  intro c hc
  have h : (!isOpener c) = true := List.all_eq_true.mp List.all_takeWhile c hc
  simpa using h

/-- What follows an opener does not change what stands before it. -/
theorem code_append_of_opener {front : List Char} (h : ∃ c ∈ front, isOpener c = true) (rest : List Char) :
    code (front ++ rest) = code front := by
  obtain ⟨c, hc, ho⟩ := h
  induction front with
  | nil => cases hc
  | cons d front ih =>
    rw [List.cons_append, code, code, List.takeWhile_cons, List.takeWhile_cons]
    split
    · next hd =>
      have hmem : c ∈ front := by
        rcases List.mem_cons.mp hc with rfl | hc
        · rw [ho] at hd
          cases hd
        · exact hc
      exact congrArg (d :: ·) (ih hmem)
    · rfl

theorem exists_encloses {o : Char} (ho : isOpener o = true) (r : List Char) :
    ∃ body rest text, r = body ++ rest ∧ Encloses o body rest ∧ Trimmed body text ∧
      commentText o r = String.ofList text := by
  simp only [isOpener, Bool.or_eq_true, decide_eq_true_eq] at ho
  rcases ho with rfl | rfl
  · have hsplit : r.takeWhile (· ≠ ')') ++ r.dropWhile (· ≠ ')') = r := List.takeWhile_append_dropWhile
    have hmem : ')' ∉ r.takeWhile (· ≠ ')') := fun h => by
      simpa using List.all_eq_true.mp List.all_takeWhile _ h
    refine ⟨_, _, _, hsplit.symm, ?_, trim_trimmed _, rfl⟩
    cases hrest : r.dropWhile (· ≠ ')') with
    | nil => exact .unclosed hmem
    | cons c rest =>
      have hhead := List.head?_dropWhile_not (· ≠ ')') r
      rw [hrest] at hhead
      have hc : c = ')' := by simpa using hhead
      rw [hc]
      exact .closed hmem rest
  · exact ⟨r, [], _, (List.append_nil r).symm, .toEnd r, trim_trimmed r, rfl⟩

/-! ## What the scanner sees before a comment -/

section Followed

variable {o : Char} (ho : isOpener o = true) (r : List Char)
include ho

theorem not_isBlank_of_isOpener : isBlank o = false := by
  simp only [isOpener, Bool.or_eq_true, decide_eq_true_eq] at ho
  rcases ho with rfl | rfl <;> decide

theorem skipBlanks_append_opener {s : List Char} (h : skipBlanks s = []) : skipBlanks (s ++ o :: r) = o :: r := by
  rw [skipBlanks_append_of_nil h, skipBlanks_of_not_isBlank (not_isBlank_of_isOpener ho)]

theorem numerals_opener {s : List Char} (h : skipBlanks s = o :: r) : numerals s = ([], s) :=
  numerals_of_stops h (by rw [not_isNumeral_of_isOpener ho]; rfl)

/-- A number ends before a comment. -/
theorem numerals_append (s : List Char) :
    numerals (s ++ o :: r) = ((numerals s).1, (numerals s).2 ++ o :: r) := by
  induction hn : s.length using Nat.strongRecOn generalizing s with
  | ind n ih =>
  cases h : skipBlanks s with
  | nil => rw [numerals_of_nil h, numerals_opener ho r (skipBlanks_append_opener ho r h)]
  | cons c u =>
    have ht := skipBlanks_append_of_cons h (o :: r)
    have hgoes : goesOn (s ++ o :: r) = goesOn s := by
      cases s with
      | nil => cases h
      | cons b s => rfl
    cases hgo : isNumeral c && goesOn s with
    | false => rw [numerals_of_stops h hgo, numerals_of_stops ht (hgoes ▸ hgo)]
    | true =>
      obtain ⟨hcn, hgs⟩ := Bool.and_eq_true_iff.mp hgo
      have hlt : u.length < n := by
        have := skipBlanks_length_le s
        rw [h, List.length_cons] at this
        omega
      rw [numerals_of_goesOn h hcn hgs, numerals_of_goesOn ht hcn (hgoes ▸ hgs), ih u.length hlt u rfl]

theorem numberText_append (s : List Char) :
    numberText (s ++ o :: r) = ((numberText s).1, (numberText s).2 ++ o :: r) := by
  cases h : skipBlanks s with
  | nil =>
    have ht := skipBlanks_append_opener ho r h
    rw [numberText_of_nil h, numberText_of_not_isSign ht (not_isSign_of_isOpener ho)]
    exact numerals_opener ho r (skipBlanks_append_opener ho r (s := []) rfl)
  | cons c u =>
    have ht := skipBlanks_append_of_cons h (o :: r)
    cases hc : isSign c with
    | true => rw [numberText_of_isSign h hc, numberText_of_isSign ht hc, numerals_append ho r u]
    | false =>
      rw [numberText_of_not_isSign h hc, numberText_of_not_isSign ht hc]
      exact numerals_append ho r (c :: u)

theorem item_append (fresh : Bool) (column : Nat) {c : Char} (hc : isOpener c = false) (s : List Char) :
    item fresh column c (s ++ o :: r) =
      ((item fresh column c s).1, (item fresh column c s).2 ++ o :: r) := by
  cases ha : c.isAlpha with
  | true => rw [item_of_isAlpha ha, item_of_isAlpha ha, numberText_append ho]
  | false => rw [item_of_mark hc ha, item_of_mark hc ha]

/-- A scanner with more behind what is left of its line. -/
def followedBy (t : Scanner) (tail : List Char) : Scanner := { t with rest := t.rest ++ tail }

omit ho in
theorem start_followedBy {t : Scanner} {c : Char} {u : List Char} (h : skipBlanks t.rest = c :: u)
    (tail : List Char) : (t.followedBy tail).start = t.start.followedBy tail := by
  have hs := skipBlanks_append_of_cons h tail
  simp only [start, moveTo, followedBy, hs, h, List.length_append, List.length_cons, Scanner.mk.injEq,
    List.cons_append, true_and, and_true]
  omega

/-- **One item.** -/
theorem next?_followedBy {t t' : Scanner} {token : Token} (hc : ∀ c ∈ t.rest, isOpener c = false)
    (h : t.next? = some (token, t')) :
    (t.followedBy (o :: r)).next? = some (token, t'.followedBy (o :: r)) := by
  obtain ⟨c, u, hs, rfl, rfl⟩ := next?_cases h
  have hmem : c ∈ t.rest := (skipBlanks_suffix t.rest).subset (hs ▸ List.mem_cons_self)
  have hstart := start_followedBy hs (o :: r)
  have hs' : skipBlanks (t.followedBy (o :: r)).rest = c :: (u ++ o :: r) :=
    skipBlanks_append_of_cons hs (o :: r)
  have hfresh : (t.followedBy (o :: r)).fresh = t.fresh := rfl
  rw [next?_of_cons hs', hstart, hfresh]
  have hcolumn : (t.start.followedBy (o :: r)).column = t.start.column := rfl
  rw [hcolumn, item_append ho r _ _ (hc c hmem)]
  simp only [moveTo, followedBy, List.length_append]
  congr 4
  omega

/-- The comment itself. -/
theorem next?_comment {t : Scanner} (h : skipBlanks t.rest = []) :
    ∃ t', (t.followedBy (o :: r)).next? = some (.comment (commentText o r), t') ∧ t'.rest = [] := by
  have hs : skipBlanks (t.followedBy (o :: r)).rest = o :: r := skipBlanks_append_opener ho r h
  rw [next?_of_cons hs, item_of_isOpener ho]
  exact ⟨_, rfl, rfl⟩

/-- **All items.** -/
theorem toList_followedBy (t : Scanner) (hc : ∀ c ∈ t.rest, isOpener c = false) :
    (t.followedBy (o :: r)).toList = t.toList ++ [.comment (commentText o r)] := by
  fun_induction toList t with
  | case1 t hn =>
    obtain ⟨t', ht, hrest⟩ := next?_comment ho r (skipBlanks_of_next?_none hn)
    have hnone : t'.next? = none := next?_of_nil (by rw [hrest]; rfl)
    rw [toList_of_some ht, toList_of_none hnone, List.nil_append]
  | case2 t token t' hn ih =>
    have hrest : ∀ c ∈ t'.rest, isOpener c = false :=
      fun c hm => hc c ((next?_suffix hn).subset hm)
    rw [toList_of_some (next?_followedBy ho r hc hn), ih hrest, List.cons_append]

end Followed

/-- A line before and from its first opener on. -/
theorem code_append (s : List Char) :
    (code s = s ∧ comment? s = none) ∨
      ∃ o r, isOpener o = true ∧ s = code s ++ o :: r ∧ comment? s = some (commentText o r) := by
  have hsplit : code s ++ s.dropWhile (fun c => !isOpener c) = s := List.takeWhile_append_dropWhile
  unfold comment?
  cases hrest : s.dropWhile (fun c => !isOpener c) with
  | nil =>
    rw [hrest, List.append_nil] at hsplit
    exact .inl ⟨hsplit, rfl⟩
  | cons o r =>
    have hhead := List.head?_dropWhile_not (fun c => !isOpener c) s
    rw [hrest] at hhead
    rw [hrest] at hsplit
    exact .inr ⟨o, r, by simpa using hhead, hsplit.symm, rfl⟩

/-- Every line is cut in this way. -/
theorem cut_code (s : List Char) : ∃ text, Cut s (code s) text ∧ text.map String.ofList = comment? s := by
  have hcode : ∀ c ∈ code s, isOpener c = false := not_isOpener_of_mem_code
  rcases code_append s with ⟨hs, hnone⟩ | ⟨o, r, ho, hs, hsome⟩
  · have hcut := Cut.bare hcode
    rw [hs] at hcut ⊢
    exact ⟨none, hcut, hnone.symm⟩
  · obtain ⟨body, rest, text, rfl, hb, ht, htext⟩ := exists_encloses ho r
    have hcut := Cut.comment hcode hb ht
    rw [← hs] at hcut
    exact ⟨some text, hcut, by rw [hsome, htext]; rfl⟩

/-- What stands before the comment has the items that it has alone, and the comment is one more. -/
theorem tokens_code (line : String) :
    tokens line =
      tokens (String.ofList (code line.toList)) ++ (comment? line.toList).toList.map .comment := by
  rcases code_append line.toList with ⟨hcode, hnone⟩ | ⟨o, r, ho, hline, hsome⟩
  · rw [hcode, hnone, String.ofList_toList]
    exact (List.append_nil _).symm
  · have hon : ofLine line = (ofLine (String.ofList (code line.toList))).followedBy (o :: r) := by
      rw [followedBy, ofLine, ofLine, String.toList_ofList, ← hline]
    have hc : ∀ c ∈ (ofLine (String.ofList (code line.toList))).rest, isOpener c = false := by
      rw [ofLine, String.toList_ofList]
      exact not_isOpener_of_mem_code
    rw [hsome, Option.toList_some, List.map_singleton, tokens, tokens, hon, toList_followedBy ho r _ hc]

end Scanner

/-- Whether an item is a comment. -/
def Token.isComment : Token → Bool
  | .comment _ => true
  | _ => false

/-- A comment begins with an opener. -/
theorem Scanner.isComment_of_not_isOpener {s : List Char} (h : ∀ c ∈ s, isOpener c = false) :
    ∀ token ∈ tokens (String.ofList s), token.isComment = false := by
  intro token htoken
  have htiled := (On.ofLine (String.ofList s)).tiled
  rw [tokens, ← map_token_calls] at htoken
  obtain ⟨call, hcall, rfl⟩ := List.mem_map.mp htoken
  obtain ⟨c, hchar, -, hbegins⟩ := (htiled.sound call hcall).begins
  rw [String.toList_ofList] at hchar
  have ho := h c (List.mem_of_getElem? hchar)
  cases htok : call.token with
  | comment text =>
    rw [htok] at hbegins
    have hopener : isOpener c = true := by
      simp only [isOpener, Bool.or_eq_true, decide_eq_true_eq]
      exact hbegins
    rw [hopener] at ho
    cases ho
  | _ => rfl

/-! ## What a comment adds to a line -/

namespace Edit

theorem slot_ofWord (letter : Char) (value : Float) (raw : String) :
    (ofWord letter value raw).slot ≠ .comment := by
  unfold ofWord ofG ofM ofWholeG
  dsimp only
  repeat' split
  all_goals nofun

end Edit

namespace Draft

theorem comment_pushAll {d : Draft} (hd : d.comment = none) {items : List Token}
    (h : ∀ token ∈ items, token.isComment = false) : (d.pushAll items).1.comment = none := by
  refine pushAll_keeps (P := fun d => d.comment = none) (fun d token ht hd => ?_) hd
  have hslot : Slot.comment ≠ token.slot := by
    cases token with
    | word letter value raw column => exact (Edit.slot_ofWord letter value raw).symm
    | comment text => cases h _ ht
    | _ => nofun
  exact (d.content_step_ne hslot).trans hd

theorem pushAll_comment (d : Draft) (items : List Token) (text : String) :
    d.pushAll (items ++ [.comment text]) =
      ({ (d.pushAll items).1 with comment := some text }, (d.pushAll items).2) := by
  rw [pushAll_append, pushAll_cons]
  exact Prod.ext rfl (List.append_nil _)

theorem actions_comment {d : Draft} (hd : d.comment = none) (text : String) :
    { d with comment := some text }.actions = .comment text :: d.actions := by
  have hdwell : { d with comment := some text }.dwellActions = d.dwellActions := rfl
  have hgroups : { d with comment := some text }.groups = d.groups := rfl
  simp only [actions, hd, hdwell, hgroups, Option.toList_none, Option.toList_some, List.map_nil, List.map_cons,
    List.nil_append, List.cons_append]

theorem leftovers_comment (d : Draft) (text : String) :
    { d with comment := some text }.leftovers = d.leftovers := rfl

end Draft

namespace Block

open Scanner

/-- A block with a comment in front of its other commands. -/
def remarked (b : Block) (comment : Option String) : Block :=
  { b with commands := comment.toList.map (fun text => ⟨b.line, .comment text⟩) ++ b.commands }

theorem remarked_none (b : Block) : b.remarked none = b := rfl

/-- What a block says apart from its comment. -/
def unremarked (b : Block) : Block :=
  { b with commands := b.commands.filter fun c => c.action.stage ≠ .comment }

theorem ofTokens_comment (line : Nat) (mode : MotionKind) {items : List Token}
    (h : ∀ token ∈ items, token.isComment = false) (comment : Option String) :
    ofTokens line mode (items ++ comment.toList.map .comment) = (ofTokens line mode items).remarked comment := by
  cases comment with
  | none => rw [Option.toList_none, List.map_nil, List.append_nil, remarked_none]
  | some text =>
    have hd := Draft.comment_pushAll (d := { motionMode := mode }) rfl h
    simp only [ofTokens, remarked, Option.toList_some, List.map_cons, List.map_nil, Draft.pushAll_comment,
      Draft.actions_comment hd, Draft.leftovers_comment, List.cons_append, List.nil_append]

theorem unremarked_remarked (b : Block) (comment : Option String) :
    (b.remarked comment).unremarked = b.unremarked := by
  unfold remarked unremarked
  rw [List.filter_append, (List.filter_eq_nil_iff (l := comment.toList.map _)).mpr, List.nil_append]
  refine List.forall_mem_map.mpr fun text _ => ?_
  simp [Action.stage]

/-- A line without a comment has no command of that kind. -/
theorem stage_of_mem_commands (place : Nat) (mode : MotionKind) {items : List Token}
    (h : ∀ token ∈ items, token.isComment = false) :
    ∀ c ∈ (ofTokens place mode items).commands, c.action.stage ≠ .comment := by
  rw [commands_ofTokens]
  refine List.forall_mem_map.mpr fun action ha hs => ?_
  have hpart := ((Draft.staged_empty mode).pushAll items).filter_stage .comment
  rw [Draft.part, Draft.comment_pushAll rfl h] at hpart
  exact List.filter_eq_nil_iff.mp hpart action ha (decide_eq_true hs)

/-- The block of a line is that of what stands before its comment, and the comment. -/
theorem ofLine_code (place : Nat) (mode : MotionKind) (line : String) :
    ofLine place mode line =
      (ofLine place mode (String.ofList (code line.toList))).remarked (comment? line.toList) := by
  rw [ofLine, ofLine, tokens_code line,
    ofTokens_comment place mode (isComment_of_not_isOpener not_isOpener_of_mem_code)]

/-- **Comments cut the line.** Whatever the line is, its items are those of the text before the first opener,
none of which is a comment, and then the comment, if there is one. So its block is that of the text before
the opener with the comment in front, and lines that differ only behind an opener say the same apart from
their comments. -/
theorem ofLine_cut :
    (∀ line : String, ∃ (before : List Char) (text : Option (List Char)),
      Cut line.toList before text ∧
      tokens line =
        tokens (String.ofList before) ++ text.toList.map (fun t => .comment (String.ofList t)) ∧
      (∀ token ∈ tokens (String.ofList before), token.isComment = false) ∧
      ∀ (place : Nat) (mode : MotionKind),
        ofLine place mode line =
          (ofLine place mode (String.ofList before)).remarked (text.map String.ofList) ∧
        ∀ c ∈ (ofLine place mode (String.ofList before)).commands, c.action.stage ≠ .comment) ∧
    ∀ (place : Nat) (mode : MotionKind) (front rest rest' : String),
      (∃ c ∈ front.toList, isOpener c = true) →
        (ofLine place mode (front ++ rest)).unremarked = (ofLine place mode (front ++ rest')).unremarked := by
  refine ⟨fun line => ?_, fun place mode front rest rest' h => ?_⟩
  · obtain ⟨text, hcut, htext⟩ := cut_code line.toList
    have hplain := isComment_of_not_isOpener (not_isOpener_of_mem_code (s := line.toList))
    refine ⟨code line.toList, text, hcut, ?_, hplain, fun place mode => ⟨?_, ?_⟩⟩
    · rw [tokens_code, ← htext, Option.toList_map, List.map_map]
      rfl
    · rw [htext]
      exact ofLine_code place mode line
    · exact stage_of_mem_commands place mode hplain
  · rw [ofLine_code, ofLine_code place mode (front ++ rest'), unremarked_remarked, unremarked_remarked,
      String.toList_append, String.toList_append, code_append_of_opener h, code_append_of_opener h]

/-- A closed bracket within a number, against one that is not closed. -/
theorem unremarked_behind_bracket :
    (∃ c ∈ "G1 X1 (".toList, isOpener c = true) ∧
      (ofLine 3 .rapid ("G1 X1 (" ++ "one) 0 Y")).unremarked =
        (ofLine 3 .rapid ("G1 X1 (" ++ " two; ")).unremarked := by
  have h : ∃ c ∈ "G1 X1 (".toList, isOpener c = true := ⟨'(', by decide, rfl⟩
  exact ⟨h, ofLine_cut.2 3 .rapid "G1 X1 (" "one) 0 Y" " two; " h⟩

example : tokens "X 1 ( a ) 2;" = tokens "X 1 " ++ [.comment "a"] := by decide +kernel

end Block

end Toolpath
