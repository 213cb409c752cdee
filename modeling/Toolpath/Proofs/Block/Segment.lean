import Toolpath.Block

/-!
# Segments of a line

The axis and arc words of a line, cut at the codes that open a group: `G0` to `G3` and `G92`. What
stands before the first of these is a segment too, for the motion mode in force. Nothing here refers to
how the words of a line are collected.

* `Address`, `GroupWord`: axis and arc words.
* `Segment.cut`, `Segment.ofTokens`: the segments of a line. No word is lost, doubled or out of its
  place (`Segment.words_ofTokens`, `Segment.kinds_cut`).
* `Segment.value?`: the first word of an address counts.
* `Segment.taken`, `Segment.refusals`: the words that count, and why the others do not.
* `Segment.offsets`, `Segment.motions`: the commands of a segment.
-/

namespace Toolpath

/-! ## Words -/

/-- What a word of a group addresses: an axis, the center of an arc on an axis, or its radius. -/
inductive Address where
  | axis (axis : Axis)
  | i | j | k | r
deriving DecidableEq, Repr

namespace Address

def letter : Address → Char
  | .axis ax => ax.letter
  | .i => 'I'
  | .j => 'J'
  | .k => 'K'
  | .r => 'R'

/-- What a letter addresses; the letters of axes do so in either case. -/
def ofLetter? (letter : Char) : Option Address :=
  match letter with
  | 'I' => some .i
  | 'J' => some .j
  | 'K' => some .k
  | 'R' => some .r
  | _ => (Axis.ofLetter? letter).map .axis

def isAxis : Address → Bool
  | .axis _ => true
  | .i | .j | .k | .r => false

theorem ofLetter?_letter (address : Address) : ofLetter? address.letter = some address := by
  cases address with
  | axis ax => cases ax <;> rfl
  | _ => rfl

end Address

/-- An axis or arc word. -/
structure GroupWord where
  address : Address
  value : Float
deriving DecidableEq, Repr

/-- The axis or arc word that an item of a line is. -/
def GroupWord.ofToken? : Token → Option GroupWord
  | .word letter value _ _ => (Address.ofLetter? letter).map fun address => { address, value }
  | _ => none

/-- The group that a `G` code opens. -/
def GroupKind.ofCode? : Int → Option GroupKind
  | 0 => some (.motion .rapid)
  | 1 => some (.motion .linear)
  | 2 => some (.motion .arcClockwise)
  | 3 => some (.motion .arcCounterClockwise)
  | 92 => some .axisOffset
  | _ => none

/-- The group that an item of a line opens. The code `92.1` is another one. -/
def GroupKind.ofToken? : Token → Option GroupKind
  | .word 'G' value _ _ =>
    if Draft.isClearCode value then none else (Number.integer? value).bind GroupKind.ofCode?
  | _ => none

/-- A code is no axis or arc word. -/
theorem GroupWord.ofToken?_of_opens {token : Token} {kind : GroupKind}
    (h : GroupKind.ofToken? token = some kind) : ofToken? token = none := by
  unfold GroupKind.ofToken? at h
  split at h
  · rfl
  · cases h

/-! ## The words that a group takes -/

namespace GroupKind

/-- Whether words of an address may stand in a group: arc words need an arc. -/
def allows (kind : GroupKind) (address : Address) : Bool :=
  address.isAxis ||
    match kind with
    | .motion kind => kind.isArc
    | .axisOffset => false

/-- Why a word does not count after the words before it in its group. -/
def refusal? (kind : GroupKind) (before : List GroupWord) (w : GroupWord) : Option BlockError :=
  if !kind.allows w.address then some (.unexpectedWord w.address.letter "arc words need G2 or G3")
  else if before.any fun v => v.address = w.address then some (.duplicateWord w.address.letter)
  else none

/-- The words that count, after others. -/
def takenAfter (kind : GroupKind) (before : List GroupWord) : List GroupWord → List GroupWord
  | [] => []
  | w :: rest =>
    (if (kind.refusal? before w).isNone then [w] else []) ++ kind.takenAfter (before ++ [w]) rest

/-- Why words do not count, after others. -/
def refusalsAfter (kind : GroupKind) (before : List GroupWord) : List GroupWord → List BlockError
  | [] => []
  | w :: rest => (kind.refusal? before w).toList ++ kind.refusalsAfter (before ++ [w]) rest

theorem refusal?_eq_none_iff (kind : GroupKind) (before : List GroupWord) (w : GroupWord) :
    kind.refusal? before w = none ↔
      kind.allows w.address = true ∧ (before.any fun v => v.address = w.address) = false := by
  unfold refusal?
  cases kind.allows w.address <;> cases before.any fun v => v.address = w.address <;> simp

/-- A word either counts or has one reason not to. -/
theorem length_takenAfter (kind : GroupKind) (before words : List GroupWord) :
    (kind.takenAfter before words).length + (kind.refusalsAfter before words).length =
      words.length := by
  induction words generalizing before with
  | nil => rfl
  | cons w rest ih =>
    rw [takenAfter, refusalsAfter, List.length_append, List.length_append, List.length_cons,
      ← ih (before ++ [w])]
    cases kind.refusal? before w with
    | none =>
      simp only [Option.isNone_none, if_true, Option.toList_none, List.length_singleton, List.length_nil]
      omega
    | some cause =>
      simp only [Option.isNone_some, Bool.false_eq_true, if_false, Option.toList_some,
        List.length_singleton, List.length_nil]
      omega

/-- The word of an address that counts is the first one. -/
theorem mem_takenAfter (kind : GroupKind) (before words : List GroupWord) (u : GroupWord) :
    u ∈ kind.takenAfter before words ↔
      kind.refusal? before u = none ∧ (words.find? fun v => v.address = u.address) = some u := by
  induction words generalizing before with
  | nil => simp [takenAfter]
  | cons w rest ih =>
    rw [takenAfter, List.mem_append, ih, refusal?_eq_none_iff, refusal?_eq_none_iff, List.any_append]
    by_cases hw : w.address = u.address
    · -- no later word of this address counts
      rw [List.find?_cons_of_pos (by simpa using hw)]
      have hlater : (([w].any fun v => v.address = u.address)) = true := by simp [hw]
      rw [hlater, Bool.or_true, ← hw, ← refusal?_eq_none_iff]
      cases kind.refusal? before w with
      | none => simpa using ⟨Eq.symm, Eq.symm⟩
      | some cause => simp
    · rw [List.find?_cons_of_neg (by simpa using hw)]
      have hlater : (([w].any fun v => v.address = u.address)) = false := by simp [hw]
      have hne : u ≠ w := fun he => hw (he ▸ rfl)
      rw [hlater, Bool.or_false]
      cases kind.refusal? before w <;> simp [hne]

end GroupKind

/-! ## Segments -/

/-- The axis and arc words between two codes that open a group. -/
structure Segment where
  kind : GroupKind
  /-- Whether no code opens the segment. -/
  implicit : Bool := false
  words : List GroupWord := []
deriving DecidableEq, Repr

namespace Segment

/-- Cuts a line at the codes that open a group: the words before the first one, and the segments. -/
def cut : List Token → List GroupWord × List Segment
  | [] => ([], [])
  | token :: rest =>
    let (words, segments) := cut rest
    match GroupKind.ofToken? token with
    | some kind => ([], { kind, words } :: segments)
    | none => ((GroupWord.ofToken? token).toList ++ words, segments)

/-- The segments of a line; the words before the first code follow the motion mode in force. -/
def ofTokens (mode : MotionKind) (items : List Token) : List Segment :=
  { kind := .motion mode, implicit := true, words := (cut items).1 } :: (cut items).2

theorem cut_of_opens {token : Token} {kind : GroupKind} (h : GroupKind.ofToken? token = some kind)
    (rest : List Token) : cut (token :: rest) = ([], { kind, words := (cut rest).1 } :: (cut rest).2) := by
  simp only [cut, h]

theorem cut_of_not_opens {token : Token} (h : GroupKind.ofToken? token = none) (rest : List Token) :
    cut (token :: rest) = ((GroupWord.ofToken? token).toList ++ (cut rest).1, (cut rest).2) := by
  simp only [cut, h]

/-- The segments of a line hold its axis and arc words, each once and in their order. -/
theorem words_ofTokens (mode : MotionKind) (items : List Token) :
    (ofTokens mode items).flatMap words = items.filterMap GroupWord.ofToken? := by
  unfold ofTokens
  rw [List.flatMap_cons]
  induction items with
  | nil => rfl
  | cons token rest ih =>
    cases h : GroupKind.ofToken? token with
    | some kind =>
      rw [cut_of_opens h, List.filterMap_cons_none (GroupWord.ofToken?_of_opens h), ← ih]
      rfl
    | none =>
      rw [cut_of_not_opens h]
      cases hw : GroupWord.ofToken? token with
      | none =>
        rw [List.filterMap_cons_none hw, ← ih]
        rfl
      | some w =>
        rw [List.filterMap_cons_some hw, ← ih]
        rfl

/-- Each code that opens a group has a segment. -/
theorem kinds_cut (items : List Token) :
    (cut items).2.map kind = items.filterMap GroupKind.ofToken? := by
  induction items with
  | nil => rfl
  | cons token rest ih =>
    cases h : GroupKind.ofToken? token with
    | some kind =>
      rw [cut_of_opens h, List.filterMap_cons_some h, List.map_cons, ih]
    | none =>
      rw [cut_of_not_opens h, List.filterMap_cons_none h, ih]

/-! ## The words that count -/

/-- The number that a segment gives to an address: that of its first word. -/
def value? (s : Segment) (address : Address) : Option Float :=
  if s.kind.allows address then (s.words.find? fun w => w.address = address).map GroupWord.value else none

def axes (s : Segment) : AxisWords := .ofFn fun axis => s.value? (.axis axis)

def center (s : Segment) : CenterOffsets where
  i := s.value? .i
  j := s.value? .j
  k := s.value? .k

def radius (s : Segment) : Option Float := s.value? .r

/-- The words of a segment that count. -/
def taken (s : Segment) : List GroupWord := s.kind.takenAfter [] s.words

/-- One reason for each word of a segment that does not count. -/
def refusals (s : Segment) : List BlockError := s.kind.refusalsAfter [] s.words

/-- Every word of a segment counts or is refused, and none does both. -/
theorem length_taken (s : Segment) : s.taken.length + s.refusals.length = s.words.length :=
  s.kind.length_takenAfter [] s.words

/-- The numbers of a segment are those of the words that count. -/
theorem value?_eq_some_iff (s : Segment) (address : Address) (value : Float) :
    s.value? address = some value ↔ ⟨address, value⟩ ∈ s.taken := by
  rw [taken, GroupKind.mem_takenAfter, GroupKind.refusal?_eq_none_iff, value?]
  cases s.kind.allows address with
  | false => simp
  | true =>
    simp only [if_true, List.any_nil, true_and, Option.map_eq_some_iff]
    constructor
    · rintro ⟨w, hw, rfl⟩
      have ha : w.address = address := by simpa using List.find?_some hw
      rw [hw, ← ha]
    · intro hw
      exact ⟨_, hw, rfl⟩

/-! ## Commands -/

/-- The offset that a segment sets, if it names an axis. -/
def offsets (s : Segment) : List Action :=
  match s.kind with
  | .motion _ => []
  | .axisOffset => if s.words.any fun w => w.address.isAxis then [.setAxisOffset s.axes] else []

/-- The motion of a segment. -/
def move (s : Segment) : MotionKind → Action
  | .rapid => .linearMove true s.axes
  | .linear => .linearMove false s.axes
  | .arcClockwise => .arcMove true s.axes s.center s.radius
  | .arcCounterClockwise => .arcMove false s.axes s.center s.radius

/-- The commands of a motion: its mode if a code opens the segment, and the motion if a word counts. -/
def motions (s : Segment) : List Action :=
  match s.kind with
  | .motion kind =>
    (if s.implicit then [] else [.setMotionMode kind]) ++ (if s.taken = [] then [] else [s.move kind])
  | .axisOffset => []

end Segment

end Toolpath
