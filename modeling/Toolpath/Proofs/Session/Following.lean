import Toolpath.Proofs.Session.Operation

/-!
# What publishing an event does to a session

While an event is published, its listeners run. In a *tame* session no listener uses the job: there are
journals, cursors that follow, and reactions that pause a cursor or make it play. Publishing then leaves
the job and the audience as they are, and every cursor stands where it stood, with one exception: a
course that was finished gives its range to the cursors that follow.

* `Session.Tame`: no reaction that is still to come uses the job.
* `Session.Leaves R`: everything stays, up to what `R` allows to happen to a cursor. `Cursor.Alike` allows
  it to play or to pause, `Cursor.Resized` also to take a range and to rewind.
* `tell_respectsTame`: publishing any other event than a finished course.
* `tell_finish`: publishing a finished course; a cursor that follows takes its range.
-/

namespace Toolpath

/-- Whether a deed leaves the job alone. -/
def Deed.isTame : Deed → Bool
  | .pause _ | .toggle _ => true
  | _ => false

/-- Whether an event is that of a finished course. -/
def Event.isFinish : Event → Bool
  | .job (.processingFinished _ _ _ _) => true
  | _ => false

/-! ## Cursors -/

namespace Cursor

/-- The cursor stands where it stood, in the same range; it may play or not. -/
structure Alike (c d : Cursor) : Prop where
  position : d.position = c.position
  maximum : d.maximum = c.maximum
  generation : d.generation = c.generation

/-- The cursor stands at the beginning of a range. -/
structure AtStart (maximum generation : Nat) (c : Cursor) : Prop where
  position : c.position = 0
  maximum : c.maximum = maximum
  generation : c.generation = generation

/-- The cursor stands where it stood, or at the beginning of a range that it took. -/
def Resized (maximum generation : Nat) (c d : Cursor) : Prop :=
  c.Alike d ∨ d.AtStart maximum generation

variable {c d e : Cursor} {m g : Nat}

theorem Alike.refl (c : Cursor) : c.Alike c := ⟨rfl, rfl, rfl⟩

theorem Alike.trans (h : c.Alike d) (h' : d.Alike e) : c.Alike e :=
  ⟨h'.position.trans h.position, h'.maximum.trans h.maximum, h'.generation.trans h.generation⟩

theorem AtStart.alike (h : c.AtStart m g) (h' : c.Alike d) : d.AtStart m g :=
  ⟨h'.position.trans h.position, h'.maximum.trans h.maximum, h'.generation.trans h.generation⟩

theorem AtStart.resized (h : c.AtStart m g) (h' : Resized m g c d) : d.AtStart m g := by
  rcases h' with h' | h'
  · exact h.alike h'
  · exact h'

theorem Resized.refl (c : Cursor) : Resized m g c c := .inl (.refl c)

theorem Resized.trans (h : Resized m g c d) (h' : Resized m g d e) : Resized m g c e := by
  rcases h with h | h
  · rcases h' with h' | h'
    · exact .inl (h.trans h')
    · exact .inr h'
  · exact .inr (h.resized h')

theorem setRange?_of_le (h : c.generation ≤ g) :
    c.setRange? m g = some { c with maximum := m, position := 0, generation := g } := by
  rw [setRange?, if_neg (Nat.not_lt.mpr h)]

end Cursor

namespace Session

variable {s t u : Session}

theorem cursor_setCursor (s : Session) (id : Nat) (c : Cursor) (other : Nat) :
    (s.setCursor id c).cursor other =
      if other = id ∧ id < s.cursors.size then c else s.cursor other := by
  simp only [cursor, setCursor, Array.getD_eq_getD_getElem?, Array.getElem?_setIfInBounds]
  by_cases h : id = other
  · subst h
    by_cases hs : id < s.cursors.size
    · simp [hs]
    · simp [hs]
  · simp [h, Ne.symm h]

@[simp] theorem size_setCursor (s : Session) (id : Nat) (c : Cursor) :
    (s.setCursor id c).cursors.size = s.cursors.size := by
  simp [setCursor]

/-! ## Tame sessions -/

/-- No reaction that is still to come uses the job. -/
def Tame (s : Session) : Prop := ∀ r ∈ s.armed, r.deed.isTame = true

/-- A cursor of the session follows the job. -/
def Followed (s : Session) (id : Nat) : Prop :=
  id < s.cursors.size ∧
    ∃ x ∈ s.bus.subscriptions, x.listener = .follow id ∧ x.filter = .categories [.job]

/-- Everything stays but the bus and what was delivered, up to what `R` allows to happen to a cursor. -/
structure Leaves (R : Cursor → Cursor → Prop) (s t : Session) : Prop where
  setup : t.setup = s.setup
  job : t.job = s.job
  subscriptions : t.bus.subscriptions = s.bus.subscriptions
  size : t.cursors.size = s.cursors.size
  armed : ∀ r ∈ t.armed, r ∈ s.armed
  cursor : ∀ id, R (s.cursor id) (t.cursor id)

section Leaves

variable {R : Cursor → Cursor → Prop}

theorem Leaves.refl (hrefl : ∀ c, R c c) (s : Session) : s.Leaves R s :=
  ⟨rfl, rfl, rfl, rfl, fun _ h => h, fun _ => hrefl _⟩

theorem Leaves.mono {R' : Cursor → Cursor → Prop} (h : s.Leaves R t) (hr : ∀ c d, R c d → R' c d) :
    s.Leaves R' t :=
  ⟨h.setup, h.job, h.subscriptions, h.size, h.armed, fun id => hr _ _ (h.cursor id)⟩

theorem Leaves.trans (htrans : ∀ c d e, R c d → R d e → R c e) (h : s.Leaves R t)
    (h' : t.Leaves R u) : s.Leaves R u where
  setup := h'.setup.trans h.setup
  job := h'.job.trans h.job
  subscriptions := h'.subscriptions.trans h.subscriptions
  size := h'.size.trans h.size
  armed r hr := h.armed r (h'.armed r hr)
  cursor id := htrans _ _ _ (h.cursor id) (h'.cursor id)

theorem Leaves.tame (h : s.Leaves R t) (hs : s.Tame) : t.Tame := fun r hr => hs r (h.armed r hr)

theorem Leaves.followed {id : Nat} (h : s.Leaves R t) (hf : s.Followed id) : t.Followed id := by
  rw [Followed, h.size, h.subscriptions]
  exact hf

/-- A cursor that is changed as `R` allows. -/
theorem leaves_setCursor (hrefl : ∀ c, R c c) {id : Nat} {c : Cursor} (hc : R (s.cursor id) c) :
    s.Leaves R (s.setCursor id c) := by
  refine ⟨rfl, rfl, rfl, size_setCursor s id c, fun _ h => h, fun other => ?_⟩
  rw [cursor_setCursor]
  split
  · rename_i h
    rw [h.1]
    exact hc
  · exact hrefl _

theorem along_leaves (hrefl : ∀ c, R c c) (htrans : ∀ c d e, R c d → R d e → R c e) :
    Step.Along Tame (Leaves R) where
  refl s _ := .refl hrefl s
  trans h h' := h.trans htrans h'
  keeps hs h := h.tame hs

end Leaves

/-- What was left after one change of the job is left after the next one. -/
theorem Leaves.withJob {j k : Job} (h : Leaves Cursor.Alike { s with job := j } t)
    (h' : Leaves Cursor.Alike { t with job := k } u) : Leaves Cursor.Alike { s with job := k } u where
  setup := h'.setup.trans h.setup
  job := h'.job
  subscriptions := h'.subscriptions.trans h.subscriptions
  size := h'.size.trans h.size
  armed r hr := h.armed r (h'.armed r hr)
  cursor id := (h.cursor id).trans (h'.cursor id)

theorem along_alike : Step.Along Tame (Leaves Cursor.Alike) :=
  along_leaves Cursor.Alike.refl fun _ _ _ => Cursor.Alike.trans

theorem along_resized (m g : Nat) : Step.Along Tame (Leaves (Cursor.Resized m g)) :=
  along_leaves Cursor.Resized.refl fun _ _ _ => Cursor.Resized.trans

end Session

namespace Step

open Session

/-! ## Listeners -/

section Deliver

variable {R : Cursor → Cursor → Prop} {follow : Nat → Publisher} {act : Deed → Step Unit} {e : Event}

/-- A listener is called, given what the cursors that follow and the reactions do. -/
theorem call_takes (hrefl : ∀ c, R c c) (htrans : ∀ c d e, R c d → R d e → R c e)
    (hf : ∀ id, Takes Tame (Leaves R) (follow id e))
    (ha : ∀ deed, deed.isTame = true → Takes Tame (Leaves R) (act deed)) (l : Listener) :
    Takes Tame (Leaves R) (call follow act e l) := by
  cases l with
  | journal book =>
    exact .modify fun s _ => ⟨rfl, rfl, rfl, rfl, fun _ h => h, fun _ => hrefl _⟩
  | follow id => exact hf id
  | reaction id =>
    intro s hs
    simp only [call, leads_bind, leads_get]
    cases hfound : s.triggered? id e with
    | none => exact leads_pure.mpr (.refl hrefl s)
    | some found =>
      have hmem : found ∈ s.armed := List.mem_of_find?_eq_some hfound
      have hdisarm : s.Leaves R (s.disarm id) :=
        ⟨rfl, rfl, rfl, rfl, fun r hr => (List.mem_filter.mp hr).1, fun _ => hrefl _⟩
      simp only [leads_bind, leads_modify]
      refine (ha found.deed (hs found hmem) _ (hdisarm.tame hs)).mono fun _ t h => ?_
      exact hdisarm.trans htrans h

theorem leaves_record (hrefl : ∀ c, R c c) (s : Session) :
    s.Leaves R { s with bus := s.bus.record e } := by
  refine ⟨rfl, rfl, ?_, rfl, fun _ h => h, fun _ => hrefl _⟩
  simp only [Bus.record]
  split <;> rfl

theorem leaves_broadcast (hrefl : ∀ c, R c c) (s : Session) :
    s.Leaves R { s with bus := s.bus.broadcast e } :=
  ⟨rfl, rfl, rfl, rfl, fun _ h => h, fun _ => hrefl _⟩

/-- An event is delivered, given what its listeners do. -/
theorem deliver_takes (hrefl : ∀ c, R c c) (htrans : ∀ c d e, R c d → R d e → R c e)
    (hcall : ∀ l, Takes Tame (Leaves R) (call follow act e l)) :
    Takes Tame (Leaves R) (deliver follow act e) := by
  have h := along_leaves hrefl htrans
  intro s hs
  have hrecord := leaves_record (e := e) hrefl s
  have hcalls : Takes Tame (Leaves R) ((s.bus.matching e).forM (call follow act e)) :=
    .forM h fun l _ => hcall l
  refine leads_deliver.mpr ((hcalls _ (hrecord.tame hs)).mono fun _ t ht => ?_)
  exact h.trans (h.trans hrecord ht) (leaves_broadcast hrefl t)

end Deliver

/-- An action on deeds that lets tame ones do no more than they may. -/
def RespectsTame (act : Deed → Step Unit) : Prop :=
  ∀ deed, deed.isTame = true → Takes Tame (Leaves Cursor.Alike) (act deed)

section RespectsTame

variable {act : Deed → Step Unit} {e : Event}

/-- No cursor follows anything but a finished course. -/
theorem followUp_of_not_finish (tell : Publisher) (id : Nat) (he : e.isFinish = false) :
    followUp tell id e = pure () := by
  unfold followUp
  split
  · cases he
  · rfl

/-- An event that no cursor follows. -/
theorem deliver_respectsTame {follow : Nat → Publisher} (ha : RespectsTame act) (hf : ∀ id, follow id e = pure ()) :
    Takes Tame (Leaves Cursor.Alike) (deliver follow act e) := by
  refine deliver_takes Cursor.Alike.refl (fun _ _ _ => Cursor.Alike.trans)
    (call_takes Cursor.Alike.refl (fun _ _ _ => Cursor.Alike.trans) (fun id => ?_) ha)
  rw [hf id]
  exact .pure along_alike _

theorem deliverAll_respectsTame (ha : RespectsTame act) (he : e.isFinish = false) :
    Takes Tame (Leaves Cursor.Alike) (deliverAll act e) :=
  deliver_respectsTame ha fun id => followUp_of_not_finish _ id he

theorem pause_respectsTame {tell : Publisher}
    (ht : ∀ playing, Takes Tame (Leaves Cursor.Alike) (tell (.playback (.playStateChanged playing))))
    (id : Nat) : Takes Tame (Leaves Cursor.Alike) (pause tell id) := by
  intro s hs
  simp only [pause, leads_bind, leads_get]
  split
  · have hpause : s.Leaves Cursor.Alike (s.setCursor id { s.cursor id with playing := false }) :=
      leaves_setCursor Cursor.Alike.refl ⟨rfl, rfl, rfl⟩
    simp only [leads_bind, leads_modify]
    refine (ht false _ (hpause.tame hs)).mono fun _ t h => ?_
    exact along_alike.trans hpause h
  · exact leads_pure.mpr (along_alike.refl s hs)

theorem toggle_respectsTame {tell : Publisher}
    (ht : ∀ playing, Takes Tame (Leaves Cursor.Alike) (tell (.playback (.playStateChanged playing))))
    (id : Nat) : Takes Tame (Leaves Cursor.Alike) (toggle tell id) := by
  intro s hs
  have htoggle : s.Leaves Cursor.Alike
      (s.setCursor id { s.cursor id with playing := !(s.cursor id).playing }) :=
    leaves_setCursor Cursor.Alike.refl ⟨rfl, rfl, rfl⟩
  simp only [toggle, leads_bind, leads_get, leads_modify, leads_pure]
  refine (ht _ _ (htoggle.tame hs)).mono fun _ t h => ?_
  exact along_alike.trans htoggle h

theorem perform_respectsTame {tell : Publisher}
    (ht : ∀ playing, Takes Tame (Leaves Cursor.Alike) (tell (.playback (.playStateChanged playing)))) :
    RespectsTame (perform tell) := by
  intro deed hd
  cases deed with
  | pause id => exact pause_respectsTame ht id
  | toggle id => exact .discard (toggle_respectsTame ht id)
  | cancel | reset | reload | load | abort | seek => cases hd

/-- **Announcing leaves a tame session alone**, if it is not of a finished course. The induction is on
the reactions that are still to come: what one of them publishes is announced to the others. -/
theorem announce_respectsTame (n : Nat) {e : Event} (he : e.isFinish = false) :
    Takes Tame (Leaves Cursor.Alike) (announce n e) := by
  induction n generalizing e with
  | zero => exact deliverAll_respectsTame (fun _ _ => .pure along_alike _) he
  | succ n ih => exact deliverAll_respectsTame (perform_respectsTame fun _ => .discard (ih rfl)) he

theorem tell_respectsTame (he : e.isFinish = false) : Takes Tame (Leaves Cursor.Alike) (tell e) :=
  .discard (.get_bind fun _ => announce_respectsTame _ he)

/-- A section of the job's life that does not finish a course changes nothing but the job. -/
theorem inSection_respectsTame {α : Type} {s : Session} (hs : s.Tame) {act : Job → Section α}
    (he : (act s.job).announces = some e) (hn : e.isFinish = false) :
    Leads s (inSection tell act) fun a t =>
      a = (act s.job).answer ∧ Leaves Cursor.Alike { s with job := (act s.job).job } t := by
  have hs' : Tame { s with job := (act s.job).job } := hs
  exact (leads_inSection he).mpr ((tell_respectsTame hn _ hs').mono fun _ t h => ⟨rfl, h⟩)

end RespectsTame

/-! ## A finished course -/

section Finish

variable {s : Session} {tell : Publisher} {m g id : Nat}

/-- A cursor that is given a range. -/
theorem setRange_leads (ht : Takes Tame (Leaves Cursor.Alike) (tell (.playback (.rangeChanged m))))
    (hs : s.Tame) :
    Leads s (setRange tell id m g) fun _ t =>
      s.Leaves (Cursor.Resized m g) t ∧
        (id < s.cursors.size → (s.cursor id).generation ≤ g → (t.cursor id).AtStart m g) ∧
        ∀ other, other ≠ id → (s.cursor other).Alike (t.cursor other) := by
  simp only [setRange, leads_bind, leads_get]
  by_cases hg : (s.cursor id).generation ≤ g
  · rw [Cursor.setRange?_of_le hg]
    simp only [leads_bind, leads_modify]
    have hset : s.Leaves (Cursor.Resized m g)
        (s.setCursor id { s.cursor id with maximum := m, position := 0, generation := g }) :=
      leaves_setCursor Cursor.Resized.refl (.inr ⟨rfl, rfl, rfl⟩)
    refine (ht _ (hset.tame hs)).mono fun _ t h => ⟨?_, fun hid _ => ?_, fun other ho => ?_⟩
    · exact (along_resized m g).trans hset (h.mono fun _ _ => .inl)
    · have := h.cursor id
      rw [cursor_setCursor, if_pos ⟨rfl, hid⟩] at this
      exact Cursor.AtStart.alike ⟨rfl, rfl, rfl⟩ this
    · have := h.cursor other
      rwa [cursor_setCursor, if_neg fun h => ho h.1] at this
  · rw [Cursor.setRange?, if_pos (Nat.not_le.mp hg)]
    exact leads_pure.mpr ⟨.refl Cursor.Resized.refl s, fun _ h => absurd h hg, fun _ _ => .refl _⟩

/-- Of listeners that are called in turn, the one that serves its purpose serves it for good. -/
theorem forM_reaches {R : Cursor → Cursor → Prop} (hR : Along Tame (Leaves R)) {Pre Goal : Cursor → Prop}
    (hpre : ∀ c d, R c d → Pre c → Pre d) (hgoal : ∀ c d, R c d → Goal c → Goal d)
    {f : Listener → Step PUnit} {ls : List Listener} (hf : ∀ l ∈ ls, Takes Tame (Leaves R) (f l))
    {l : Listener} (hl : l ∈ ls)
    (hreach : ∀ s, s.Tame → id < s.cursors.size → Pre (s.cursor id) →
      Leads s (f l) fun _ t => Goal (t.cursor id))
    (hs : s.Tame) (hid : id < s.cursors.size) (hp : Pre (s.cursor id)) :
    Leads s (ls.forM f) fun _ t => Goal (t.cursor id) := by
  induction ls generalizing s with
  | nil => cases hl
  | cons x ls ih =>
    have htail : ∀ y ∈ ls, Takes Tame (Leaves R) (f y) := fun y hy => hf y (List.mem_cons_of_mem x hy)
    refine leads_bind.mpr ?_
    rcases List.mem_cons.mp hl with rfl | hl
    · refine ((hf l List.mem_cons_self s hs).and (hreach s hs hid hp)).mono fun _ t ⟨h, hg⟩ => ?_
      exact (Takes.forM hR htail t (h.tame hs)).mono fun _ u hu => hgoal _ _ (hu.cursor id) hg
    · refine (hf x List.mem_cons_self s hs).mono fun _ t h => ?_
      exact ih htail hl (h.tame hs) (h.size ▸ hid) (hpre _ _ (h.cursor id) hp)

/-- A cursor takes the range of a course that was finished. -/
theorem followUp_leads {act : Deed → Step Unit} (ha : RespectsTame act) (hs : s.Tame) (identity : String)
    (count problems : Nat) :
    Leads s (followUp (fun inner => discard (deliver (fun _ _ => pure ()) act inner)) id
        (.job (.processingFinished g identity count problems))) fun _ t =>
      s.Leaves (Cursor.Resized (count - 1) g) t ∧
        (id < s.cursors.size → (s.cursor id).generation ≤ g →
          (t.cursor id).AtStart (count - 1) g) := by
  have htell : Takes Tame (Leaves Cursor.Alike) (discard
      (deliver (fun _ _ => pure ()) act (.playback (.rangeChanged (count - 1))))) :=
    .discard (deliver_respectsTame ha fun _ => rfl)
  show Leads s (setRange (fun inner => discard (deliver (fun _ _ => pure ()) act inner)) id (count - 1) g) _
  exact (setRange_leads htell hs).mono fun _ _ h => ⟨h.1, h.2.1⟩

/-- The listeners of a finished course. -/
theorem call_resized {act : Deed → Step Unit} (ha : RespectsTame act) (identity : String)
    (count problems : Nat) (l : Listener) :
    Takes Tame (Leaves (Cursor.Resized (count - 1) g)) (call
      (followUp fun inner => discard (deliver (fun _ _ => pure ()) act inner)) act
      (.job (.processingFinished g identity count problems)) l) := by
  refine call_takes Cursor.Resized.refl (fun _ _ _ => Cursor.Resized.trans) (fun other u hu => ?_)
    (fun deed hd u hu => ?_) l
  · exact (followUp_leads ha hu identity count problems).mono fun _ _ h => h.1
  · exact (ha deed hd u hu).mono fun _ _ h => h.mono fun _ _ => .inl

theorem deliverAll_finish {act : Deed → Step Unit} (ha : RespectsTame act) (hs : s.Tame) (hf : s.Followed id)
    (hg : (s.cursor id).generation ≤ g) (identity : String) (count problems : Nat) :
    Leads s (deliverAll act (.job (.processingFinished g identity count problems))) fun _ t =>
      (t.cursor id).AtStart (count - 1) g := by
  obtain ⟨hid, x, hx, hl, hfilter⟩ := hf
  have hrecord := leaves_record (R := Cursor.Resized (count - 1) g)
    (e := .job (.processingFinished g identity count problems)) Cursor.Resized.refl s
  have hmem : .follow id ∈ s.bus.matching (.job (.processingFinished g identity count problems)) := by
    refine List.mem_map.mpr ⟨x, List.mem_filter.mpr ⟨hx, ?_⟩, hl⟩
    rw [hfilter]
    rfl
  have hle : ∀ c d : Cursor, Cursor.Resized (count - 1) g c d → c.generation ≤ g → d.generation ≤ g := by
    rintro c d (h | h) hc
    · exact h.generation ▸ hc
    · exact Nat.le_of_eq h.generation
  have hreach : ∀ u : Session, u.Tame → id < u.cursors.size → (u.cursor id).generation ≤ g →
      Leads u (followUp (fun inner => discard (deliver (fun _ _ => pure ()) act inner)) id
        (.job (.processingFinished g identity count problems)))
        fun _ t => (t.cursor id).AtStart (count - 1) g :=
    fun u hu hi hp => (followUp_leads ha hu identity count problems).mono fun _ _ h => h.2 hi hp
  refine leads_deliver.mpr (forM_reaches (along_resized (count - 1) g) hle
    (fun c d h hc => Cursor.AtStart.resized hc h) (fun l _ => call_resized ha identity count problems l)
    hmem hreach (hrecord.tame hs) hid hg)

theorem deliverAll_resized {act : Deed → Step Unit} (ha : RespectsTame act) (identity : String)
    (count problems : Nat) :
    Takes Tame (Leaves (Cursor.Resized (count - 1) g))
      (deliverAll act (.job (.processingFinished g identity count problems))) :=
  deliver_takes Cursor.Resized.refl (fun _ _ _ => Cursor.Resized.trans)
    (call_resized ha identity count problems)

/-- The reactions that are still to come do what they may with a finished course too. -/
theorem announce_eq (n : Nat) (e : Event) : ∃ act, RespectsTame act ∧ announce n e = deliverAll act e := by
  cases n with
  | zero => exact ⟨_, fun _ _ => .pure along_alike _, rfl⟩
  | succ n => exact ⟨_, perform_respectsTame fun _ => .discard (announce_respectsTame n rfl), rfl⟩

/-- **A finished course is followed.** Every cursor that follows takes the range of the course and
rewinds; everything else stays. -/
theorem tell_finish (hs : s.Tame) (identity : String) (count problems : Nat) :
    Leads s (Step.tell (.job (.processingFinished g identity count problems))) fun _ t =>
      s.Leaves (Cursor.Resized (count - 1) g) t ∧
        ∀ id, s.Followed id ∧ (s.cursor id).generation ≤ g → (t.cursor id).AtStart (count - 1) g := by
  obtain ⟨act, ha, he⟩ :=
    announce_eq s.armed.length (.job (.processingFinished g identity count problems))
  simp only [Step.tell, publish, leads_discard, leads_bind, leads_get, he]
  refine Leads.forall ?_ fun id ⟨hf, hg⟩ => ?_
  · exact deliverAll_resized ha identity count problems s hs
  · exact deliverAll_finish ha hs hf hg identity count problems

end Finish

end Step

end Toolpath
