import Toolpath.Proofs.Block.Edit

/-!
# Refused words are skipped

A token that `LineBuilder.push` refuses leaves a diagnostic behind and nothing else: without it, the
line says the same, and every other item is taken or refused as before.

A refused axis or arc word may even leave the group open that it would have joined. Such a group has no
words and no code, so nothing that the line says shows whether it is there.

* `Draft.readAll`: the items of a line one by one, each with the reason for which it is refused.
* `Draft.Alike`: drafts that differ in groups that say nothing. `Draft.Alike.step`, `Draft.readAll_alike`: they
  stay so, and refuse the same items for the same reasons.
* `Draft.kept`, `Draft.pushAll_kept`: what is left of a line without its refused items.
* `Block.ofTokens_skips`: the block of a line.
-/

namespace Toolpath

/-! ## Groups that say nothing -/

namespace WordGroup

/-- Whether a group says nothing: no code opened it, and it has no words. -/
def isSilent (g : WordGroup) : Bool :=
  match g.kind with
  | .motion _ => g.implicit && !g.hasWords
  | .axisOffset => false

theorem of_isSilent {g : WordGroup} (h : g.isSilent = true) :
    ∃ kind, g.kind = .motion kind ∧ g.implicit = true ∧ g.hasWords = false := by
  unfold isSilent at h
  split at h
  · rename_i kind hk
    simp only [Bool.and_eq_true, Bool.not_eq_true'] at h
    exact ⟨kind, hk, h.1, h.2⟩
  · cases h

theorem motionActions_of_isSilent {g : WordGroup} (h : g.isSilent = true) : g.motionActions = [] := by
  obtain ⟨kind, hk, hi, hw⟩ := of_isSilent h
  simp [motionActions, motion?, hk, hi, hw]

theorem offsetActions_of_isSilent {g : WordGroup} (h : g.isSilent = true) : g.offsetActions = [] := by
  obtain ⟨kind, hk, -, -⟩ := of_isSilent h
  simp [offsetActions, hk]

theorem offsetProblems_of_isSilent {g : WordGroup} (h : g.isSilent = true) : g.offsetProblems = [] := by
  obtain ⟨kind, hk, -, -⟩ := of_isSilent h
  simp [offsetProblems, hk]

theorem radiusProblems_of_isSilent {g : WordGroup} (h : g.isSilent = true) : g.radiusProblems = [] := by
  obtain ⟨kind, hk, -, hw⟩ := of_isSilent h
  have hr : g.radius.isSome = false := by
    simp only [hasWords, Bool.or_eq_false_iff] at hw
    exact hw.2
  simp [radiusProblems, hr]

/-- The groups that say something. -/
def withoutSilent (groups : List WordGroup) : List WordGroup := groups.filter fun g => !g.isSilent

theorem withoutSilent_append (xs ys : List WordGroup) :
    withoutSilent (xs ++ ys) = withoutSilent xs ++ withoutSilent ys :=
  List.filter_append xs ys

theorem flatMap_withoutSilent {β : Type} {f : WordGroup → List β} (hf : ∀ g, g.isSilent = true → f g = [])
    (groups : List WordGroup) : (withoutSilent groups).flatMap f = groups.flatMap f := by
  induction groups with
  | nil => rfl
  | cons g groups ih =>
    unfold withoutSilent at ih ⊢
    cases hg : g.isSilent with
    | true => rw [List.filter_cons_of_neg (by simp [hg]), List.flatMap_cons, hf g hg, ih, List.nil_append]
    | false => rw [List.filter_cons_of_pos (by simp [hg]), List.flatMap_cons, List.flatMap_cons, ih]

end WordGroup

open WordGroup (withoutSilent withoutSilent_append flatMap_withoutSilent)

namespace Groups

/-- The group that the next axis or arc word joins. -/
def joined (g : Groups) : WordGroup := g.current.getD { kind := .motion g.motionMode, implicit := true }

/-- Groups that take the next word alike and differ only in those that say nothing. -/
structure Alike (g h : Groups) : Prop where
  motionMode : h.motionMode = g.motionMode
  closed : withoutSilent h.closed = withoutSilent g.closed
  joined : h.joined = g.joined

theorem withoutSilent_current (g : Groups) : withoutSilent g.current.toList = withoutSilent [g.joined] := by
  unfold joined
  cases g.current <;> rfl

/-- All that such groups say. -/
theorem Alike.withoutSilent_all {g h : Groups} (ha : g.Alike h) :
    withoutSilent (h.closed ++ h.current.toList) = withoutSilent (g.closed ++ g.current.toList) := by
  rw [withoutSilent_append, withoutSilent_append, ha.closed, withoutSilent_current, withoutSilent_current, ha.joined]

end Groups

/-! ## Drafts that say the same -/

namespace Draft

/-- Drafts that differ in groups that say nothing. -/
def Alike (d e : Draft) : Prop := ∃ g : Groups, (d.content .groups).Alike g ∧ e = d.put .groups g

theorem Alike.refl (d : Draft) : d.Alike d := ⟨d.content .groups, ⟨rfl, rfl, rfl⟩, rfl⟩

/-- A draft in which the group that the next axis or arc word joins is open. -/
def opened (d : Draft) : Draft := { d with openGroup := some d.currentGroup }

theorem Alike.opened {d e : Draft} (h : d.Alike e) : d.Alike e.opened := by
  obtain ⟨g, hg, rfl⟩ := h
  exact ⟨{ g with current := some g.joined }, ⟨hg.motionMode, hg.closed, hg.joined⟩, rfl⟩

theorem Alike.flatMap_groups {d e : Draft} (h : d.Alike e) {β : Type} {f : WordGroup → List β}
    (hf : ∀ g, g.isSilent = true → f g = []) : e.groups.flatMap f = d.groups.flatMap f := by
  obtain ⟨g, hg, rfl⟩ := h
  have hh : withoutSilent (d.put .groups g).groups = withoutSilent d.groups := hg.withoutSilent_all
  rw [← flatMap_withoutSilent hf, hh, flatMap_withoutSilent hf]

theorem Alike.actions {d e : Draft} (h : d.Alike e) : e.actions = d.actions := by
  have ho := h.flatMap_groups fun _ => WordGroup.offsetActions_of_isSilent
  have hm := h.flatMap_groups fun _ => WordGroup.motionActions_of_isSilent
  obtain ⟨g, -, rfl⟩ := h
  unfold Draft.actions
  rw [ho, hm]
  rfl

theorem Alike.leftovers {d e : Draft} (h : d.Alike e) : e.leftovers = d.leftovers := by
  have ho := h.flatMap_groups fun _ => WordGroup.offsetProblems_of_isSilent
  have hr := h.flatMap_groups fun _ => WordGroup.radiusProblems_of_isSilent
  obtain ⟨g, -, rfl⟩ := h
  unfold Draft.leftovers
  rw [ho, hr]
  rfl

theorem Alike.blockNumber {d e : Draft} (h : d.Alike e) : e.blockNumber = d.blockNumber := by
  obtain ⟨g, -, rfl⟩ := h
  rfl

/-- **One item.** Drafts that say the same refuse the same items for the same reasons, and go on saying the
same. -/
theorem Alike.step {d e : Draft} (h : d.Alike e) (token : Token) :
    e.refusal? token = d.refusal? token ∧ (d.step token).Alike (e.step token) := by
  obtain ⟨g, hg, rfl⟩ := h
  unfold Draft.refusal? Draft.step Token.slot
  generalize token.edit = edit
  cases edit with
  | openGroup kind =>
    refine ⟨rfl, ⟨g.motionMode, g.closed ++ g.current.toList, some { kind }⟩, ?_, rfl⟩
    exact { motionMode := hg.motionMode, closed := hg.withoutSilent_all, joined := rfl }
  | joinGroup word =>
    -- both look at the group that the word would join, which is the same
    have hchange : ∀ k : Groups, (Edit.joinGroup word).change k =
        (k.joined.pushAt word).map fun group => { k with current := some group } := fun _ => rfl
    have hcontent : (d.put .groups g).content .groups = g := rfl
    simp only [Edit.refusal?, Edit.after, Edit.slot, hcontent, hchange, hg.joined]
    cases (d.content .groups).joined.pushAt word with
    | error cause => exact ⟨rfl, g, hg, rfl⟩
    | ok group =>
      refine ⟨rfl, { g with current := some group }, ?_, rfl⟩
      exact { motionMode := hg.motionMode, closed := hg.closed, joined := rfl }
  | _ => exact ⟨rfl, g, hg, rfl⟩

/-! ## Whole lines -/

/-- Reads the items of a line in order and gives for each why it is refused, if it is. A refused item leaves the
group that the next axis or arc word joins open, where `opens` says so. -/
def readAll (opens : Draft → Token → Bool) (d : Draft) :
    List Token → Draft × List (Token × Option BlockError)
  | [] => (d, [])
  | token :: rest =>
    match d.push token with
    | .ok next =>
      let (last, judged) := next.readAll opens rest
      (last, (token, none) :: judged)
    | .error cause =>
      let (last, judged) := (if opens d token then d.opened else d).readAll opens rest
      (last, (token, some cause) :: judged)

/-- The items of a line, each with the reason for which it is refused where it stands. -/
def judged (d : Draft) : List Token → List (Token × Option BlockError)
  | [] => []
  | token :: rest => (token, d.refusal? token) :: (d.step token).judged rest

theorem readAll_cons (opens : Draft → Token → Bool) (d : Draft) (token : Token) (rest : List Token) :
    ∃ next, (next = d.step token ∨ next = (d.step token).opened) ∧
      d.readAll opens (token :: rest) =
        ((next.readAll opens rest).1, (token, d.refusal? token) :: (next.readAll opens rest).2) := by
  rw [readAll, push_eq]
  cases h : d.refusal? token with
  | none => exact ⟨d.step token, .inl rfl, rfl⟩
  | some cause =>
    rw [step_of_refused h]
    refine ⟨if opens d token then d.opened else d, ?_, rfl⟩
    cases opens d token with
    | true => exact .inr rfl
    | false => exact .inl rfl

/-- **A whole line.** Whichever groups refused items leave open, the same items are refused for the same
reasons, and the line says the same. -/
theorem readAll_alike (opens : Draft → Token → Bool) {d e : Draft} (h : d.Alike e) (items : List Token) :
    (e.readAll opens items).2 = d.judged items ∧ (d.pushAll items).1.Alike (e.readAll opens items).1 := by
  induction items generalizing d e with
  | nil => exact ⟨rfl, h⟩
  | cons token rest ih =>
    obtain ⟨next, hnext, he⟩ := e.readAll_cons opens token rest
    obtain ⟨hr, hs⟩ := h.step token
    have hn : (d.step token).Alike next := by
      rcases hnext with rfl | rfl
      · exact hs
      · exact hs.opened
    obtain ⟨hj, ha⟩ := ih hn
    rw [he, pushAll_cons, hj, hr]
    exact ⟨rfl, ha⟩

/-- The items that are not refused. -/
def unrefused (judged : List (Token × Option BlockError)) : List Token :=
  (judged.filter fun x => x.2.isNone).map Prod.fst

/-- The items of a line that are not refused where they stand. -/
def kept (d : Draft) (items : List Token) : List Token := unrefused (d.judged items)

theorem kept_cons (d : Draft) (token : Token) (rest : List Token) :
    d.kept (token :: rest) =
      match d.refusal? token with
      | none => token :: (d.step token).kept rest
      | some _ => (d.step token).kept rest := by
  unfold kept
  rw [judged]
  cases d.refusal? token <;> rfl

theorem map_fst_judged (d : Draft) (items : List Token) : (d.judged items).map Prod.fst = items := by
  induction items generalizing d with
  | nil => rfl
  | cons token rest ih => rw [judged, List.map_cons, ih]

/-- Every refused item has its problem. -/
theorem pushAll_judged (d : Draft) (items : List Token) :
    (d.pushAll items).2 = (d.judged items).filterMap Prod.snd := by
  induction items generalizing d with
  | nil => rfl
  | cons token rest ih =>
    rw [pushAll_cons, judged, ih]
    cases h : d.refusal? token <;> simp

/-- Without its refused items a line leaves the same draft, and no item of it is refused. -/
theorem pushAll_kept (d : Draft) (items : List Token) :
    (d.pushAll (d.kept items)).1 = (d.pushAll items).1 ∧
      d.judged (d.kept items) = (d.kept items).map fun token => (token, none) := by
  induction items generalizing d with
  | nil => exact ⟨rfl, rfl⟩
  | cons token rest ih =>
    rw [kept_cons, pushAll_cons]
    cases h : d.refusal? token with
    | none =>
      obtain ⟨hl, hj⟩ := ih (d.step token)
      rw [pushAll_cons, judged, hl, hj, h]
      exact ⟨rfl, rfl⟩
    | some cause =>
      rw [step_of_refused h]
      exact ih d

end Draft

namespace Block

/-- How a line is read that ends with the draft `last`, its items being judged as in `judged`: the refused ones
are skipped. -/
structure Skips (opens : Draft → Token → Bool) (line : Nat) (mode : MotionKind) (items : List Token)
    (last : Draft) (judged : List (Token × Option BlockError)) : Prop where
  /-- Every item is judged, in its order. -/
  all : judged.map Prod.fst = items
  /-- The block is what the last draft says, whichever groups were left open. -/
  said : (ofTokens line mode items).commands = last.actions.map (Command.mk line) ∧
    (ofTokens line mode items).number = last.blockNumber
  /-- Without the refused items the line says the same. -/
  commands : (ofTokens line mode (Draft.unrefused judged)).commands = (ofTokens line mode items).commands
  number : (ofTokens line mode (Draft.unrefused judged)).number = (ofTokens line mode items).number
  /-- And then no item is refused. -/
  taken : ∀ x ∈ (Draft.readAll opens { motionMode := mode } (Draft.unrefused judged)).2, x.2 = none
  /-- One problem for each refused item, in line order, then those of the line as a whole. -/
  diagnostics : (ofTokens line mode items).diagnostics =
    (judged.filterMap Prod.snd).map (fun cause => .onLine line (.block cause)) ++
      last.leftovers.map (.onLine line)
  leftovers : (ofTokens line mode (Draft.unrefused judged)).diagnostics = last.leftovers.map (.onLine line)
  wholeLine : ∀ cause ∈ last.leftovers,
    cause = .block (.missingWord "G4" 'P') ∨
      cause = .block (.unexpectedWord 'P' "P is only used with G4") ∨
      cause = .block (.missingWord "G92" 'X') ∨ cause = .ignoredRadius

theorem commands_ofTokens (line : Nat) (mode : MotionKind) (items : List Token) :
    (ofTokens line mode items).commands =
      (Draft.pushAll { motionMode := mode } items).1.actions.map (Command.mk line) := by
  simp only [ofTokens]

theorem number_ofTokens (line : Nat) (mode : MotionKind) (items : List Token) :
    (ofTokens line mode items).number = (Draft.pushAll { motionMode := mode } items).1.blockNumber := by
  simp only [ofTokens]

theorem diagnostics_ofTokens (line : Nat) (mode : MotionKind) (items : List Token) :
    (ofTokens line mode items).diagnostics =
      (Draft.pushAll { motionMode := mode } items).2.map (fun cause => .onLine line (.block cause)) ++
        (Draft.pushAll { motionMode := mode } items).1.leftovers.map (.onLine line) := by
  simp [ofTokens, Function.comp_def]

/-- **Refused words are skipped.** -/
theorem ofTokens_skips (opens : Draft → Token → Bool) (line : Nat) (mode : MotionKind) (items : List Token) :
    Skips opens line mode items (Draft.readAll opens { motionMode := mode } items).1
      (Draft.readAll opens { motionMode := mode } items).2 := by
  obtain ⟨hjudged, hlast⟩ := Draft.readAll_alike opens (.refl { motionMode := mode }) items
  obtain ⟨hkept, hnone⟩ := Draft.pushAll_kept { motionMode := mode } items
  have hquiet := Draft.pushAll_judged { motionMode := mode } (Draft.kept { motionMode := mode } items)
  rw [hnone, List.filterMap_map] at hquiet
  rw [hjudged]
  exact
    { all := Draft.map_fst_judged _ items
      said := by rw [commands_ofTokens, number_ofTokens, hlast.actions, hlast.blockNumber]; exact ⟨rfl, rfl⟩
      commands := by rw [commands_ofTokens, commands_ofTokens, ← Draft.kept, hkept]
      number := by rw [number_ofTokens, number_ofTokens, ← Draft.kept, hkept]
      taken := by
        rw [← Draft.kept, (Draft.readAll_alike opens (.refl _) _).1, hnone]
        exact List.forall_mem_map.mpr fun _ _ => rfl
      diagnostics := by rw [diagnostics_ofTokens, hlast.leftovers, Draft.pushAll_judged]
      leftovers := by
        rw [diagnostics_ofTokens, ← Draft.kept, hkept, hlast.leftovers, hquiet]
        simp
      wholeLine := fun cause hc => Draft.mem_leftovers hc }

end Block

end Toolpath
