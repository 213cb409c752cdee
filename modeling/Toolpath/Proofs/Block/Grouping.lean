import Toolpath.Proofs.Block.Parts
import Toolpath.Proofs.Block.Segment

/-!
# The groups of a line are its segments

`LineBuilder` takes the words of a line one by one and knows only the group that is open. Its groups
come to what the segments of the whole line say.

* `Segment.group`: the group that the words of a segment make; `Segment.pushAt_group`: one more word.
* `Draft.push_of_opens`, `Draft.push_of_word`, `Draft.push_of_other`: all that an item of a line does to
  the groups of a draft.
* `Draft.pushAll_groups`, `Draft.pushAll_refusals`: a whole line.
* `Block.ofTokens_grouped`: the commands and problems of axis and arc words.
-/

namespace Toolpath

/-! ## Segments as groups -/

namespace Segment

variable (s : Segment) (w : GroupWord) (address : Address)

/-- A segment with one more word. -/
def snoc : Segment := { s with words := s.words ++ [w] }

/-- A segment with further words. -/
def extend (words : List GroupWord) : Segment := { s with words := s.words ++ words }

/-- The group of words that a segment makes. -/
def group : WordGroup where
  kind := s.kind
  implicit := s.implicit
  axes := s.axes
  center := s.center
  radius := s.radius

theorem extend_nil : s.extend [] = s := by
  rw [extend, List.append_nil]

theorem extend_snoc (words : List GroupWord) : (s.snoc w).extend words = s.extend (w :: words) := by
  rw [extend, snoc, extend, List.append_assoc, List.singleton_append]

/-- The group of a code without words. -/
theorem group_nil (kind : GroupKind) (implicit : Bool) :
    group { kind, implicit } = { kind, implicit } := by
  have hv : ∀ address, value? { kind, implicit } address = none := by
    intro address
    unfold value?
    split <;> rfl
  simp only [group, axes, center, radius, hv]
  rfl

/-- A further word counts only if its address is allowed and has no number yet. -/
theorem value?_snoc :
    (s.snoc w).value? address =
      (s.value? address).or (if s.kind.allows address && w.address = address then some w.value else none) := by
  have hk : (s.snoc w).kind = s.kind := rfl
  have hw : (s.snoc w).words = s.words ++ [w] := rfl
  unfold value?
  rw [hk, hw]
  cases s.kind.allows address with
  | false => rfl
  | true =>
    simp only [if_true, List.find?_append, Bool.true_and]
    cases s.words.find? fun v => v.address = address with
    | some v => rfl
    | none => by_cases hw : w.address = address <;> simp [hw]

theorem isSome_value? :
    (s.value? address).isSome = (s.kind.allows address && s.words.any fun v => v.address = address) := by
  unfold value?
  cases s.kind.allows address with
  | false => rfl
  | true => exact Bool.eq_iff_iff.mpr (by simp)

theorem value?_snoc_of_ne {address : Address} (h : w.address ≠ address) :
    (s.snoc w).value? address = s.value? address := by
  rw [value?_snoc]
  simp [h]

/-- A word that is refused gives no address a number. -/
theorem value?_snoc_of_refused {cause : BlockError} (h : s.kind.refusal? s.words w = some cause) :
    (s.snoc w).value? address = s.value? address := by
  by_cases hw : w.address = address
  · subst hw
    rw [value?_snoc]
    cases ha : s.kind.allows w.address with
    | false => simp
    | true =>
      cases hv : s.value? w.address with
      | some v => rfl
      | none =>
        -- then the word is the first of its address
        have hs := s.isSome_value? w.address
        rw [hv, ha, Option.isSome_none, Bool.true_and] at hs
        rw [GroupKind.refusal?, ha, ← hs] at h
        cases h
  · exact s.value?_snoc_of_ne w hw

theorem group_snoc_of_refused {cause : BlockError} (h : s.kind.refusal? s.words w = some cause) :
    (s.snoc w).group = s.group := by
  have hv : (s.snoc w).value? = s.value? := funext fun address => s.value?_snoc_of_refused w address h
  simp only [group, axes, center, radius, hv]
  rfl

theorem refusal?_eq :
    s.kind.refusal? s.words w =
      if !s.kind.allows w.address then some (.unexpectedWord w.address.letter "arc words need G2 or G3")
      else if (s.value? w.address).isSome then some (.duplicateWord w.address.letter)
      else none := by
  rw [isSome_value?, GroupKind.refusal?]
  cases s.kind.allows w.address <;> rfl

/-- A word that is not refused gives its number to its address. -/
theorem value?_snoc_of_taken (h : s.kind.refusal? s.words w = none) :
    (s.snoc w).value? address = if address = w.address then some w.value else s.value? address := by
  by_cases hw : address = w.address
  · subst hw
    rw [refusal?_eq] at h
    rw [value?_snoc, if_pos rfl]
    cases ha : s.kind.allows w.address with
    | false => simp [ha] at h
    | true =>
      cases hv : s.value? w.address with
      | none => simp
      | some v => simp [ha, hv] at h
  · rw [s.value?_snoc_of_ne w (Ne.symm hw), if_neg hw]

end Segment

/-- Adds a word to a group. -/
def WordGroup.pushAt (g : WordGroup) (w : GroupWord) : Except BlockError WordGroup :=
  match w.address with
  | .axis axis => g.pushAxis axis w.value
  | address => g.pushArcWord address.letter w.value

theorem PerAxis.ext_get {α : Type} {p q : PerAxis α} (h : ∀ axis, p.get axis = q.get axis) : p = q := by
  have hx := h .x
  have hy := h .y
  have hz := h .z
  have ha := h .a
  have hb := h .b
  have hc := h .c
  cases p
  cases q
  simp only [get] at hx hy hz ha hb hc
  subst hx hy hz ha hb hc
  rfl

theorem Segment.takesArcWords_group (s : Segment) {address : Address} (h : address.isAxis = false) :
    s.group.takesArcWords = s.kind.allows address := by
  unfold GroupKind.allows
  rw [h, Bool.false_or]
  rfl

namespace Segment

variable {s : Segment} {value : Float}

theorem group_snoc_axis {ax : Axis} (h : s.kind.refusal? s.words ⟨.axis ax, value⟩ = none) :
    (s.snoc ⟨.axis ax, value⟩).group = { s.group with axes := s.axes.set ax (some value) } := by
  have hv := fun address => s.value?_snoc_of_taken _ address h
  have haxes : (s.snoc ⟨.axis ax, value⟩).axes = s.axes.set ax (some value) := by
    refine PerAxis.ext_get fun other => ?_
    rw [axes, PerAxis.get_ofFn, hv]
    by_cases ho : other = ax
    · rw [ho, if_pos rfl, PerAxis.get_set_self]
    · rw [if_neg (fun he => ho (Address.axis.inj he)), PerAxis.get_set_ne _ _ ho, axes,
        PerAxis.get_ofFn]
  simp only [group, haxes, center, radius, hv, reduceCtorEq, if_false]
  rfl

/-- The arc words of a group after one more. -/
def withArcWord (s : Segment) (address : Address) (value : Float) : WordGroup :=
  { s.group with
    center := {
      i := if address = .i then some value else s.value? .i
      j := if address = .j then some value else s.value? .j
      k := if address = .k then some value else s.value? .k }
    radius := if address = .r then some value else s.value? .r }

theorem pushArcWord_group (s : Segment) {address : Address} (ha : address.isAxis = false)
    (value : Float) :
    s.group.pushArcWord address.letter value =
      if !s.kind.allows address then .error (.unexpectedWord address.letter "arc words need G2 or G3")
      else if (s.value? address).isSome then .error (.duplicateWord address.letter)
      else .ok (s.withArcWord address value) := by
  unfold WordGroup.pushArcWord
  rw [s.takesArcWords_group ha]
  split
  · rfl
  · -- the four letters differ only in the place that has to be empty
    unfold withArcWord group center radius
    cases address with
    | axis ax => cases ha
    | i => generalize s.value? .i = slot; cases slot <;> rfl
    | j => generalize s.value? .j = slot; cases slot <;> rfl
    | k => generalize s.value? .k = slot; cases slot <;> rfl
    | r => generalize s.value? .r = slot; cases slot <;> rfl

theorem group_snoc_arcWord {address : Address} (h : s.kind.refusal? s.words ⟨address, value⟩ = none)
    (ha : address.isAxis = false) :
    (s.snoc ⟨address, value⟩).group = s.withArcWord address value := by
  have hv := fun other => s.value?_snoc_of_taken _ other h
  have haxes : (s.snoc ⟨address, value⟩).axes = s.axes := by
    refine PerAxis.ext_get fun other => ?_
    rw [axes, PerAxis.get_ofFn, hv, if_neg, axes, PerAxis.get_ofFn]
    rintro rfl
    cases ha
  simp only [group, withArcWord, haxes, center, radius, hv, eq_comm]
  rfl

/-- **One more word.** A group takes a word exactly if its segment does. -/
theorem pushAt_group (s : Segment) (w : GroupWord) :
    s.group.pushAt w =
      match s.kind.refusal? s.words w with
      | some cause => .error cause
      | none => .ok (s.snoc w).group := by
  obtain ⟨address, value⟩ := w
  have hr := s.refusal?_eq ⟨address, value⟩
  cases haxis : address.isAxis with
  | true =>
    obtain ⟨ax, rfl⟩ : ∃ ax, address = .axis ax := by
      cases address with
      | axis ax => exact ⟨ax, rfl⟩
      | _ => cases haxis
    have hg : s.group.axes.get ax = s.value? (.axis ax) := PerAxis.get_ofFn _ ax
    have ha : s.kind.allows (.axis ax) = true := rfl
    simp only [WordGroup.pushAt, WordGroup.pushAxis, hg]
    cases hv : s.value? (.axis ax) with
    | some v =>
      rw [hr, ha, hv]
      rfl
    | none =>
      simp only [ha, hv, Bool.not_true, Option.isSome_none, Bool.false_eq_true, if_false] at hr
      rw [hr, group_snoc_axis hr]
      rfl
  | false =>
    have hp : s.group.pushAt ⟨address, value⟩ = s.group.pushArcWord address.letter value := by
      cases address <;> first | rfl | cases haxis
    rw [hp, s.pushArcWord_group haxis]
    split at hr
    · rw [hr, if_pos ‹_›]
    · split at hr
      · rw [hr, if_neg ‹_›, if_pos ‹_›]
      · rw [hr, if_neg ‹_›, if_neg ‹_›, group_snoc_arcWord hr haxis]

end Segment

/-! ## One item of a line -/

/-- Whether a problem names an axis or arc word that is refused. -/
def BlockError.isOfGroups : BlockError → Bool
  | .duplicateWord letter | .unexpectedWord letter _ => (Address.ofLetter? letter).isSome
  | _ => false

theorem GroupKind.refusal?_isOfGroups {kind : GroupKind} {before : List GroupWord} {w : GroupWord}
    {cause : BlockError} (h : kind.refusal? before w = some cause) : cause.isOfGroups = true := by
  unfold refusal? at h
  split at h
  · cases h
    simp [BlockError.isOfGroups, Address.ofLetter?_letter]
  · split at h
    · cases h
      simp [BlockError.isOfGroups, Address.ofLetter?_letter]
    · cases h

/-- A code that opens no group is neither one of a motion nor `92`. -/
theorem GroupKind.code_of_ofCode?_eq_none {n : Int} (hn : 0 ≤ n) (h : ofCode? n = none) :
    MotionKind.ofCode? n.toNat = none ∧ n.toNat ≠ 92 := by
  unfold ofCode? at h
  split at h <;> cases h
  rename_i h0 h1 h2 h3 h92
  have hne : n ≠ 0 ∧ n ≠ 1 ∧ n ≠ 2 ∧ n ≠ 3 ∧ n ≠ 92 := ⟨h0, h1, h2, h3, h92⟩
  constructor
  · simp only [MotionKind.ofCode?, MotionKind.all, List.find?_eq_none]
    intro kind _
    have hcode : kind.code = 0 ∨ kind.code = 1 ∨ kind.code = 2 ∨ kind.code = 3 := by
      cases kind <;> decide
    rw [decide_eq_true_eq]
    omega
  · omega

namespace Draft

/-- A draft with the same groups. -/
structure SameGroups (d d' : Draft) : Prop where
  motionMode : d'.motionMode = d.motionMode
  closedGroups : d'.closedGroups = d.closedGroups
  openGroup : d'.openGroup = d.openGroup

theorem SameGroups.currentGroup {d d' : Draft} (h : d.SameGroups d') :
    d'.currentGroup = d.currentGroup := by
  rw [Draft.currentGroup, h.openGroup, h.motionMode, Draft.currentGroup]

theorem push_of_opens (d : Draft) {token : Token} {kind : GroupKind}
    (h : GroupKind.ofToken? token = some kind) : d.push token = .ok (d.startGroup kind) := by
  unfold GroupKind.ofToken? at h
  split at h
  · rename_i value raw column
    split at h
    · cases h
    · rename_i hclear
      obtain ⟨n, hn, hk⟩ := Option.bind_eq_some_iff.mp h
      simp only [push, pushWord, pushG, hclear, hn]
      unfold GroupKind.ofCode? at hk
      split at hk <;> cases hk <;> rfl
  · cases h

theorem map_eq_bind {ε α β : Type} (x : Except ε α) (f : α → β) : (do return f (← x)) = x.map f := by
  cases x <;> rfl

/-- An axis or arc word joins the open group, or is refused by it. -/
theorem push_of_word (d : Draft) {token : Token} {w : GroupWord} (h : GroupWord.ofToken? token = some w) :
    d.push token = (d.currentGroup.pushAt w).map fun g => { d with openGroup := some g } := by
  unfold GroupWord.ofToken? at h
  split at h
  · rename_i letter value raw column
    obtain ⟨address, ha, rfl⟩ := Option.map_eq_some_iff.mp h
    unfold Address.ofLetter? at ha
    split at ha
    case h_5 =>
      obtain ⟨ax, hax, rfl⟩ := Option.map_eq_some_iff.mp ha
      simp only [push]
      unfold pushWord
      -- the letters of other words are not those of axes
      split <;> first | cases hax | skip
      simp only [hax]
      exact map_eq_bind _ _
    all_goals
      cases ha
      exact map_eq_bind _ _
  · cases h

theorem choose_error {α : Type} [DecidableEq α] {group code : String} {slot : Option (Chosen α)}
    {value : α} {cause : BlockError} (h : choose group slot value code = .error cause) :
    cause.isOfGroups = false := by
  unfold choose at h
  split at h
  · cases h
  · split at h
    · cases h
    · cases h
      rfl

/-- All that an item does to the groups if it neither opens one nor joins one. -/
inductive Leaves (d : Draft) : Except BlockError Draft → Prop where
  | ok {d' : Draft} (h : d.SameGroups d') : Leaves d (.ok d')
  | error {cause : BlockError} (h : cause.isOfGroups = false) : Leaves d (.error cause)

theorem leaves_bind {α : Type} (d : Draft) {x : Except BlockError α} {f : α → Draft}
    (hx : ∀ cause, x = .error cause → cause.isOfGroups = false) (hf : ∀ a, d.SameGroups (f a)) :
    d.Leaves (do return f (← x)) := by
  cases x with
  | ok a => exact .ok (hf a)
  | error cause => exact .error (hx cause rfl)

theorem pushM_leaves (d : Draft) (value : Float) (raw : String) : d.Leaves (d.pushM value raw) := by
  unfold pushM
  split <;> first | exact .ok ⟨rfl, rfl, rfl⟩ | exact .error rfl

theorem pushTool_leaves (d : Draft) (value : Float) : d.Leaves (d.pushTool value) := by
  unfold pushTool
  split
  · split
    · split
      · exact .error rfl
      · exact .ok ⟨rfl, rfl, rfl⟩
    · exact .error rfl
  · exact .error rfl

theorem setOnce_error {slot : Option Float} {letter : Char} {value : Float} {cause : BlockError}
    (hl : (Address.ofLetter? letter).isSome = false)
    (h : WordGroup.setOnce slot letter value = .error cause) : cause.isOfGroups = false := by
  unfold WordGroup.setOnce at h
  split at h
  · cases h
    exact hl
  · cases h

theorem setPositive_error {slot : Option Float} {letter : Char} {value : Float} {reason : String}
    {cause : BlockError} (hl : (Address.ofLetter? letter).isSome = false)
    (h : setPositive slot letter value reason = .error cause) : cause.isOfGroups = false := by
  unfold setPositive at h
  split at h
  · cases h
    rfl
  · exact setOnce_error hl h

theorem pushWholeG_leaves (d : Draft) {n : Nat} (raw : String) (hm : MotionKind.ofCode? n = none)
    (hn : n ≠ 92) : d.Leaves (d.pushWholeG n raw) := by
  unfold pushWholeG
  rw [hm]
  split
  · cases ‹none = some _›
  · exact d.leaves_bind (fun _ => choose_error) fun _ => ⟨rfl, rfl, rfl⟩
  · exact d.leaves_bind (fun _ => choose_error) fun _ => ⟨rfl, rfl, rfl⟩
  · split
    · exact .ok ⟨rfl, rfl, rfl⟩
    · exact d.leaves_bind (fun _ => choose_error) fun _ => ⟨rfl, rfl, rfl⟩
    · exact d.leaves_bind (fun _ => choose_error) fun _ => ⟨rfl, rfl, rfl⟩
    · exact d.leaves_bind (fun _ => choose_error) fun _ => ⟨rfl, rfl, rfl⟩
    · exact d.leaves_bind (fun _ => choose_error) fun _ => ⟨rfl, rfl, rfl⟩
    · exact absurd rfl hn
    · exact .ok ⟨rfl, rfl, rfl⟩
    · exact .error rfl

theorem pushG_leaves (d : Draft) {value : Float} {raw : String} {column : Nat}
    (h : GroupKind.ofToken? (.word 'G' value raw column) = none) : d.Leaves (d.pushG value raw) := by
  unfold pushG
  split
  · exact .ok ⟨rfl, rfl, rfl⟩
  · rename_i hclear
    split
    · rename_i n hn
      split
      · rename_i hrange
        have hnonneg : 0 ≤ n := of_decide_eq_true (Bool.and_eq_true _ _ ▸ hrange).1
        simp only [GroupKind.ofToken?, hclear, hn, Option.bind_some] at h
        obtain ⟨hm, h92⟩ := GroupKind.code_of_ofCode?_eq_none hnonneg h
        exact d.pushWholeG_leaves raw hm h92
      · exact .error rfl
    · exact .error rfl

/-- Any other item leaves the groups as they are, or is refused for another reason. -/
theorem push_of_other (d : Draft) {token : Token} (ho : GroupKind.ofToken? token = none)
    (hw : GroupWord.ofToken? token = none) : d.Leaves (d.push token) := by
  cases token with
  | word letter value raw column =>
    have hl : Address.ofLetter? letter = none := Option.map_eq_none_iff.mp hw
    simp only [push]
    unfold pushWord
    split
    · exact d.pushG_leaves ho
    · exact d.pushM_leaves value raw
    · exact d.leaves_bind (fun _ => setPositive_error rfl) fun _ => ⟨rfl, rfl, rfl⟩
    · exact d.leaves_bind (fun _ => setPositive_error rfl) fun _ => ⟨rfl, rfl, rfl⟩
    · exact d.pushTool_leaves value
    · exact d.leaves_bind (fun _ => setPositive_error rfl) fun _ => ⟨rfl, rfl, rfl⟩
    · cases hl
    · cases hl
    · cases hl
    · cases hl
    · split
      · rename_i ax hax
        unfold Address.ofLetter? at hl
        split at hl
        case h_5 => rw [hax] at hl; cases hl
        all_goals cases hl
      · exact .error (by rw [BlockError.isOfGroups, hl]; rfl)
  | blockNumber n => exact .ok ⟨rfl, rfl, rfl⟩
  | comment text => exact .ok ⟨rfl, rfl, rfl⟩
  | programMarker => exact .ok ⟨rfl, rfl, rfl⟩
  | blockDelete => exact .ok ⟨rfl, rfl, rfl⟩
  | error cause => exact .error rfl

/-- All that an item does to the groups of a draft whose open group is that of a segment. -/
inductive Joins (d : Draft) (s : Segment) (token : Token) : Except BlockError Draft → Prop where
  | opens (kind : GroupKind) (ho : GroupKind.ofToken? token = some kind) :
      Joins d s token (.ok (d.startGroup kind))
  | takes (w : GroupWord) (d' : Draft) (ho : GroupKind.ofToken? token = none)
      (hw : GroupWord.ofToken? token = some w) (hr : s.kind.refusal? s.words w = none)
      (hc : d'.closedGroups = d.closedGroups) (hg : d'.currentGroup = (s.snoc w).group) :
      Joins d s token (.ok d')
  | refuses (w : GroupWord) (cause : BlockError) (ho : GroupKind.ofToken? token = none)
      (hw : GroupWord.ofToken? token = some w) (hr : s.kind.refusal? s.words w = some cause) :
      Joins d s token (.error cause)
  | passes (d' : Draft) (ho : GroupKind.ofToken? token = none) (hw : GroupWord.ofToken? token = none)
      (hc : d'.closedGroups = d.closedGroups) (hg : d'.currentGroup = s.group) :
      Joins d s token (.ok d')
  | fails (cause : BlockError) (ho : GroupKind.ofToken? token = none)
      (hw : GroupWord.ofToken? token = none) (hn : cause.isOfGroups = false) :
      Joins d s token (.error cause)

/-- **Inversion.** Every item does one of the things that `Joins` lists. -/
theorem push_joins {d : Draft} {s : Segment} (h : d.currentGroup = s.group) (token : Token) :
    Joins d s token (d.push token) := by
  cases ho : GroupKind.ofToken? token with
  | some kind =>
    rw [d.push_of_opens ho]
    exact .opens kind ho
  | none =>
    cases hw : GroupWord.ofToken? token with
    | some w =>
      rw [d.push_of_word hw, h, s.pushAt_group]
      cases hr : s.kind.refusal? s.words w with
      | some cause => exact .refuses w cause ho hw hr
      | none => exact .takes w _ ho hw hr rfl rfl
    | none =>
      have hl := d.push_of_other ho hw
      generalize d.push token = result at hl
      cases hl with
      | ok hs => exact .passes _ ho hw hs.closedGroups (hs.currentGroup.trans h)
      | error hn => exact .fails _ ho hw hn

/-! ## A whole line -/

theorem pushAll_of_ok {d d' : Draft} {token : Token} (h : d.push token = .ok d') (rest : List Token) :
    d.pushAll (token :: rest) = d'.pushAll rest := by
  simp only [pushAll, h]

theorem pushAll_of_error {d : Draft} {token : Token} {cause : BlockError}
    (h : d.push token = .error cause) (rest : List Token) :
    d.pushAll (token :: rest) = ((d.pushAll rest).1, cause :: (d.pushAll rest).2) := by
  simp only [pushAll, h]

section Line

variable {β : Type} {f : WordGroup → List β}

/-- What the groups of a draft come to, if a group without code and words comes to nothing. -/
theorem flatMap_groups (d : Draft) (hf : ∀ mode, f { kind := .motion mode, implicit := true } = []) :
    d.groups.flatMap f = d.closedGroups.flatMap f ++ f d.currentGroup := by
  rw [groups, List.flatMap_append]
  congr 1
  unfold currentGroup
  cases d.openGroup with
  | some g => simp
  | none => exact (hf _).symm

/-- **The groups of a line.** If the open group is that of the words since the last code, then the
groups of the line come to what its segments come to. -/
theorem pushAll_groups (hf : ∀ mode, f { kind := .motion mode, implicit := true } = []) {d : Draft}
    {s : Segment} (h : d.currentGroup = s.group) (items : List Token) :
    (d.pushAll items).1.groups.flatMap f =
      d.closedGroups.flatMap f ++ f (s.extend (Segment.cut items).1).group ++
        (Segment.cut items).2.flatMap fun t => f t.group := by
  -- `s` holds the words since the last code, those that were refused too: they change no group
  induction items generalizing d s with
  | nil =>
    rw [pushAll, d.flatMap_groups hf, h, Segment.cut, s.extend_nil]
    simp
  | cons token rest ih =>
    have hj := push_joins h token
    generalize hp : d.push token = result at hj
    cases hj with
    | opens kind ho =>
      have hg : (d.startGroup kind).currentGroup = Segment.group { kind } :=
        (Segment.group_nil kind false).symm
      have hc : (d.startGroup kind).closedGroups = d.groups := rfl
      rw [pushAll_of_ok hp, Segment.cut_of_opens ho, ih hg, hc, d.flatMap_groups hf, h, s.extend_nil,
        List.flatMap_cons, ← List.append_assoc]
      rfl
    | takes w d' ho hw hr hc hg =>
      rw [pushAll_of_ok hp, Segment.cut_of_not_opens ho, hw, ih hg, hc, s.extend_snoc]
      rfl
    | refuses w cause ho hw hr =>
      rw [pushAll_of_error hp, Segment.cut_of_not_opens ho, hw,
        ih (h.trans (s.group_snoc_of_refused w hr).symm), s.extend_snoc]
      rfl
    | passes d' ho hw hc hg =>
      rw [pushAll_of_ok hp, Segment.cut_of_not_opens ho, hw, ih hg, hc]
      rfl
    | fails cause ho hw hn =>
      rw [pushAll_of_error hp, Segment.cut_of_not_opens ho, hw, ih h]
      rfl

end Line

/-- **The refused words of a line**, under the same condition. -/
theorem pushAll_refusals {d : Draft} {s : Segment} (h : d.currentGroup = s.group) (items : List Token) :
    (d.pushAll items).2.filter BlockError.isOfGroups =
      s.kind.refusalsAfter s.words (Segment.cut items).1 ++
        (Segment.cut items).2.flatMap Segment.refusals := by
  induction items generalizing d s with
  | nil => rfl
  | cons token rest ih =>
    have hj := push_joins h token
    generalize hp : d.push token = result at hj
    cases hj with
    | opens kind ho =>
      have hg : (d.startGroup kind).currentGroup = Segment.group { kind } :=
        (Segment.group_nil kind false).symm
      rw [pushAll_of_ok hp, Segment.cut_of_opens ho, ih hg]
      rfl
    | takes w d' ho hw hr hc hg =>
      rw [pushAll_of_ok hp, Segment.cut_of_not_opens ho, hw, ih hg]
      simp only [Option.toList_some, List.singleton_append, GroupKind.refusalsAfter, hr]
      rfl
    | refuses w cause ho hw hr =>
      have hcause := GroupKind.refusal?_isOfGroups hr
      rw [pushAll_of_error hp, Segment.cut_of_not_opens ho, hw, List.filter_cons_of_pos hcause,
        ih (h.trans (s.group_snoc_of_refused w hr).symm)]
      simp only [Option.toList_some, List.singleton_append, GroupKind.refusalsAfter, hr]
      rfl
    | passes d' ho hw hc hg =>
      rw [pushAll_of_ok hp, Segment.cut_of_not_opens ho, hw, ih hg]
      rfl
    | fails cause ho hw hn =>
      rw [pushAll_of_error hp, Segment.cut_of_not_opens ho, hw,
        List.filter_cons_of_neg (by rw [hn]; exact Bool.false_ne_true), ih h]
      rfl

end Draft

/-! ## Commands and problems -/

namespace Segment

theorem isEmpty_axes (s : Segment) :
    s.axes.isEmpty = true ↔ ∀ ax, s.value? (.axis ax) = none := by
  simp only [AxisWords.isEmpty, axes, PerAxis.toList, PerAxis.ofFn, List.all_cons, List.all_nil,
    Bool.and_true, Bool.and_eq_true, Option.isNone_iff_eq_none]
  constructor
  · rintro ⟨hx, hy, hz, ha, hb, hc⟩ ax
    cases ax <;> assumption
  · intro h
    exact ⟨h _, h _, h _, h _, h _, h _⟩

/-- A group has words exactly if a word of its segment counts. -/
theorem hasWords_group (s : Segment) : s.group.hasWords = false ↔ s.taken = [] := by
  have hgroup : s.group.hasWords = false ↔ ∀ address, s.value? address = none := by
    simp only [WordGroup.hasWords, group, Bool.or_eq_false_iff, Bool.not_eq_false', isEmpty_axes,
      CenterOffsets.isEmpty, center, radius, Bool.and_eq_true, Option.isNone_iff_eq_none,
      Option.isSome_eq_false_iff]
    constructor
    · rintro ⟨⟨haxes, ⟨hi, hj⟩, hk⟩, hr⟩ address
      cases address with
      | axis ax => exact haxes ax
      | _ => assumption
    · intro h
      exact ⟨⟨fun ax => h _, ⟨h _, h _⟩, h _⟩, h _⟩
  rw [hgroup, List.eq_nil_iff_forall_not_mem]
  constructor
  · intro h w hw
    have hv := (s.value?_eq_some_iff w.address w.value).mpr hw
    rw [h] at hv
    cases hv
  · intro h address
    cases hv : s.value? address with
    | none => rfl
    | some value => exact absurd ((s.value?_eq_some_iff address value).mp hv) (h _)

/-- No axis has a number exactly if no axis word stands in the segment. -/
theorem isEmpty_axes_eq (s : Segment) : s.axes.isEmpty = !s.words.any fun w => w.address.isAxis := by
  have hsome : ∀ ax, (s.value? (.axis ax)).isSome = s.words.any fun v => v.address = .axis ax :=
    fun ax => s.isSome_value? (.axis ax)
  rw [Bool.eq_iff_iff, isEmpty_axes, Bool.not_eq_true']
  simp only [← Option.isNone_iff_eq_none, ← Option.isSome_eq_false_iff, hsome, List.any_eq_false,
    decide_eq_true_eq]
  constructor
  · intro h w hw haxis
    obtain ⟨ax, hax⟩ : ∃ ax, w.address = .axis ax := by
      cases ha : w.address with
      | axis ax => exact ⟨ax, rfl⟩
      | _ => rw [ha] at haxis; cases haxis
    exact h ax w hw hax
  · intro h ax w hw hax
    exact h w hw (by rw [hax]; rfl)

theorem offsetActions_group (s : Segment) : s.group.offsetActions = s.offsets := by
  have hk : s.group.kind = s.kind := rfl
  have ha : s.group.axes = s.axes := rfl
  unfold WordGroup.offsetActions offsets
  rw [hk, ha]
  cases s.kind with
  | motion kind => rfl
  | axisOffset =>
    simp only [s.isEmpty_axes_eq]
    cases s.words.any fun w => w.address.isAxis <;> rfl

theorem motionActions_group (s : Segment) : s.group.motionActions = s.motions := by
  have hk : s.group.kind = s.kind := rfl
  unfold WordGroup.motionActions motions WordGroup.motion?
  rw [hk]
  cases s.kind with
  | motion kind =>
    by_cases ht : s.taken = []
    · simp only [s.hasWords_group.mpr ht, if_pos ht]
      rfl
    · have hw : s.group.hasWords = true := by simpa using mt s.hasWords_group.mp ht
      simp only [hw, if_neg ht]
      cases kind <;> rfl
  | axisOffset => rfl

end Segment

/-- Whether a problem is that of an axis or arc word. -/
def Cause.isOfGroups : Cause → Bool
  | .block cause => cause.isOfGroups
  | _ => false

namespace Draft

theorem leftovers_isOfGroups (d : Draft) : ∀ cause ∈ d.leftovers, cause.isOfGroups = false := by
  intro cause hc
  rcases mem_leftovers hc with rfl | rfl | rfl | rfl <;> rfl

section OfTokens

variable (mode : MotionKind) (items : List Token)

theorem currentGroup_start :
    currentGroup { motionMode := mode } = Segment.group { kind := .motion mode, implicit := true } :=
  (Segment.group_nil _ _).symm

/-- The groups of a line come to what its segments come to. -/
theorem groups_ofTokens {β : Type} {f : WordGroup → List β}
    (hf : ∀ mode, f { kind := .motion mode, implicit := true } = []) :
    (pushAll { motionMode := mode } items).1.groups.flatMap f =
      (Segment.ofTokens mode items).flatMap fun s => f s.group := by
  rw [pushAll_groups hf (currentGroup_start mode) items]
  rfl

theorem offsets_ofTokens :
    (pushAll { motionMode := mode } items).1.actions.filter Action.isOffset =
      (Segment.ofTokens mode items).flatMap Segment.offsets := by
  rw [filter_isOffset, groups_ofTokens mode items fun _ => rfl]
  simp only [Segment.offsetActions_group]

theorem motions_ofTokens :
    (pushAll { motionMode := mode } items).1.actions.filter Action.isMotionPart =
      (Segment.ofTokens mode items).flatMap Segment.motions := by
  rw [filter_isMotionPart, groups_ofTokens mode items fun _ => rfl]
  simp only [Segment.motionActions_group]

theorem problems_ofTokens :
    ((pushAll { motionMode := mode } items).2.map Cause.block ++
        (pushAll { motionMode := mode } items).1.leftovers).filter Cause.isOfGroups =
      ((Segment.ofTokens mode items).flatMap Segment.refusals).map Cause.block := by
  have hleft : (pushAll { motionMode := mode } items).1.leftovers.filter Cause.isOfGroups = [] := by
    rw [List.filter_eq_nil_iff]
    intro cause hc
    rw [leftovers_isOfGroups _ cause hc]
    exact Bool.false_ne_true
  have hrefusals := pushAll_refusals (currentGroup_start mode) items
  rw [List.filter_append, hleft, List.append_nil, List.filter_map]
  exact congrArg (List.map Cause.block) hrefusals

end OfTokens

end Draft

namespace Block

/-- The commands and problems of a line that come from axis and arc words are those of segments, in their
order. -/
structure Grouped (b : Block) (segments : List Segment) : Prop where
  offsets : (b.commands.filter fun c => c.action.isOffset) =
    (segments.flatMap Segment.offsets).map (Command.mk b.line)
  motions : (b.commands.filter fun c => c.action.isMotionPart) =
    (segments.flatMap Segment.motions).map (Command.mk b.line)
  refusals : (b.diagnostics.filter fun d => d.cause.isOfGroups) =
    (segments.flatMap Segment.refusals).map fun cause => .onLine b.line (.block cause)

/-- **Words are grouped as they are declared to be.** The offsets and motions of a line, and the problems
of its axis and arc words, are those of its segments. The segments hold each axis and arc word once, and
each code that opens a group has one; a word gives its command a number, or it is refused once. -/
theorem ofTokens_grouped (line : Nat) (mode : MotionKind) (items : List Token) :
    (ofTokens line mode items).Grouped (Segment.ofTokens mode items) ∧
      (Segment.ofTokens mode items).flatMap Segment.words = items.filterMap GroupWord.ofToken? ∧
      (Segment.ofTokens mode items).tail.map Segment.kind = items.filterMap GroupKind.ofToken? ∧
      ∀ s ∈ Segment.ofTokens mode items,
        s.taken.length + s.refusals.length = s.words.length ∧
          ∀ address value, s.value? address = some value ↔ ⟨address, value⟩ ∈ s.taken := by
  refine ⟨⟨?_, ?_, ?_⟩, Segment.words_ofTokens mode items, Segment.kinds_cut items, ?_⟩
  · rw [← Draft.offsets_ofTokens]
    simp only [ofTokens, List.filter_map, Function.comp_def]
  · rw [← Draft.motions_ofTokens]
    simp only [ofTokens, List.filter_map, Function.comp_def]
  · have h := congrArg (List.map (Diagnostic.onLine line)) (Draft.problems_ofTokens mode items)
    rw [List.map_map] at h
    refine Eq.trans ?_ h
    simp only [ofTokens, List.filter_map, Function.comp_def]
    rfl
  · intro s _
    exact ⟨s.length_taken, s.value?_eq_some_iff⟩

end Block

end Toolpath
