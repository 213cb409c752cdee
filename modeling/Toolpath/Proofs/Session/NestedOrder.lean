import Toolpath.Proofs.Session.Publishing

/-!
# The order of events in the history and at the receivers

`EventBus.publish` writes an event into the history before the handlers run, and sends it to the
receivers after that. So an event that a handler publishes stands after the event it replies to in the
history, and before it at a receiver.

* `Session.Progresses`, `Step.accepts_progresses`: while no handler breaks anything off, publishing comes to an end and
  makes the publications of a tree. The induction is on the reactions that are still to come.
* `Step.publish_leads`: one publication; `Step.publish_plain`: one in a session without reactions.
* `Session.NestedOrder`, `Session.history_begun_receiver_ended`: single publications and whole sequences of operations.
-/

namespace Toolpath

theorem PublishTree.inTurn_append (xs ys : List Event) :
    (PublishTree.inTurn xs).append (.inTurn ys) = .inTurn (xs ++ ys) := by
  induction xs with
  | nil => rfl
  | cons e xs ih => simp only [inTurn, append, ih, List.cons_append]

namespace Session

variable {s t u : Session}

/-- No reaction that is still to come breaks anything off. -/
def Unbroken (s : Session) : Prop := ∀ r ∈ s.armed, r.deed ≠ .abort

/-- At most `n` reactions are still to come, and none breaks anything off. -/
structure Bounded (n : Nat) (s : Session) : Prop where
  unbroken : s.Unbroken
  armed : s.armed.length ≤ n

/-- The publications of some tree are made, and no reaction is added. -/
structure Progresses (s t : Session) : Prop where
  armed : t.armed.Sublist s.armed
  tree : ∃ tree, s.Publishes tree t

namespace Progresses

theorem of_bus_eq (harmed : t.armed.Sublist s.armed) (hbus : t.bus = s.bus) : s.Progresses t :=
  ⟨harmed, .nil, .quiet (.of_bus_eq hbus)⟩

theorem refl (s : Session) : s.Progresses s := of_bus_eq (.refl _) rfl

theorem trans (h : s.Progresses t) (h' : t.Progresses u) : s.Progresses u := by
  obtain ⟨a, ha⟩ := h.tree
  obtain ⟨b, hb⟩ := h'.tree
  exact ⟨h'.armed.trans h.armed, a.append b, ha.trans hb⟩

theorem unbroken (h : s.Progresses t) (hs : s.Unbroken) : t.Unbroken := fun r hr => hs r (h.armed.subset hr)

end Progresses

theorem along_progresses (n : Nat) : Step.Along (Bounded n) Progresses where
  refl s _ := .refl s
  trans h h' := h.trans h'
  keeps hs h := ⟨h.unbroken hs.unbroken, Nat.le_trans h.armed.length_le hs.armed⟩

end Session

namespace Step

open Session

variable {n : Nat} {s : Session} {e : Event}

/-! ## While reactions are to come -/

/-- A handler is called. A reaction is disarmed before it acts, so fewer are to come then. -/
theorem call_progresses (hless : ∀ k < n, Accepts (Bounded k) Progresses tell)
    (hf : ∀ id, Takes (Bounded n) Progresses (followUp tell id e)) (l : Listener) :
    Takes (Bounded n) Progresses (call (followUp tell) (perform tell) e l) := by
  cases l with
  | journal book => exact .modify fun s _ => .of_bus_eq (.refl _) rfl
  | follow id => exact hf id
  | reaction id =>
    intro s hs
    simp only [call, leads_bind, leads_get]
    cases hfound : s.triggered? id e with
    | none => exact leads_pure.mpr (.refl s)
    | some found =>
      have hmem : found ∈ s.armed := List.mem_of_find?_eq_some hfound
      have hdisarm : s.Progresses (s.disarm id) := .of_bus_eq List.filter_sublist rfl
      have hlt : (s.disarm id).armed.length < n := Nat.lt_of_lt_of_le (length_disarm_lt hfound) hs.armed
      simp only [leads_bind, leads_modify]
      refine ((hless _ hlt).perform (hs.unbroken found hmem) _ ⟨hdisarm.unbroken hs.unbroken, Nat.le_refl _⟩).mono ?_
      exact fun _ t h => hdisarm.trans h

theorem callListeners_progresses
    (hcall : ∀ l, Takes (Bounded n) Progresses (call (followUp tell) (perform tell) e l)) :
    Takes (Bounded n) Progresses (callListeners e) :=
  .get_bind fun _ => .forM (along_progresses n) fun l _ => hcall l

/-- **One publication**: the event is recorded, its handlers make the publications of a tree, and it is sent. -/
theorem publish_leads (hc : Takes (Bounded n) Progresses (callListeners e)) (hs : Bounded n s) :
    Leads s (publish e) fun _ t => ∃ u inner, (callListeners e).run (s.recorded e) = (.ok (), u) ∧
      (s.recorded e).Publishes inner u ∧ u.armed.Sublist s.armed ∧ t = u.sent e := by
  obtain ⟨_, u, hrun, harmed, inner, hinner⟩ := hc (s.recorded e) ⟨hs.unbroken, hs.armed⟩
  exact leads_publish.mpr ⟨_, u, hrun, u, inner, hrun, hinner, harmed, rfl⟩

theorem tell_progresses (hc : Takes (Bounded n) Progresses (callListeners e)) :
    Takes (Bounded n) Progresses (tell e) := by
  refine .discard fun s hs => (publish_leads hc hs).mono fun _ t h => ?_
  obtain ⟨u, inner, hrun, hinner, harmed, rfl⟩ := h
  exact ⟨harmed, .cons e inner .nil, .publication (.refl s) hrun hinner (.quiet (.refl _))⟩

/-- Any other event than a finished course; no cursor follows it. -/
theorem callListeners_of_not_finish (hless : ∀ k < n, Accepts (Bounded k) Progresses tell)
    (he : e.isFinish = false) : Takes (Bounded n) Progresses (callListeners e) := by
  refine callListeners_progresses (call_progresses hless fun id => ?_)
  rw [followUp_of_not_finish _ id he]
  exact .pure (along_progresses n) _

/-- A cursor that follows publishes at most its range, and no cursor follows that. -/
theorem followUp_progresses (hless : ∀ k < n, Accepts (Bounded k) Progresses tell) (id : Nat) :
    Takes (Bounded n) Progresses (followUp tell id e) := by
  unfold followUp
  split
  · refine .get_bind fun _ => ?_
    split
    · exact .pure (along_progresses n) _
    · refine .bind (along_progresses n) (.modify fun s _ => .of_bus_eq (.refl _) rfl) fun _ => ?_
      exact tell_progresses (callListeners_of_not_finish hless rfl)
  · exact .pure (along_progresses n) _

/-- **Publishing comes to its end** and makes the publications of a tree. -/
theorem accepts_progresses (n : Nat) : Accepts (Bounded n) Progresses tell := by
  induction n using Nat.strongRecOn with
  | ind n hless =>
    exact
      { along := along_progresses n
        silent := fun _ harmed hbus => .of_bus_eq (harmed ▸ .refl _) hbus
        publishes := fun e => tell_progresses
          (callListeners_progresses (call_progresses hless (followUp_progresses hless))) }

theorem publishes_withEvent (hs : s.armed = []) (he : e.isFinish = false) :
    s.Publishes (.inTurn [e]) (s.withEvent e) := by
  have hrecorded : (s.recorded e).armed = [] := hs
  have hcalled : Leads (s.recorded e) (callListeners e) fun _ u => u.bus = s.bus.record e := by
    simp only [callListeners, leads_bind, leads_get]
    exact (leads_forM_call hrecorded fun id _ => followUp_of_not_finish _ id he).mpr rfl
  obtain ⟨_, u, hrun, hu⟩ := hcalled
  refine .publication (.refl s) hrun (.quiet (.of_bus_eq hu)) (.quiet (.of_bus_eq ?_))
  rw [sent, hu]
  rfl

/-- A handler of a finished course: only a cursor that takes the range publishes something. -/
theorem call_plain (hs : s.armed = []) (g count problems : Nat) (identity : String) (l : Listener) :
    Leads s (call (followUp tell) (perform tell) (.job (.processingFinished g identity count problems)) l)
      fun _ t => t.armed = [] ∧ t.takesRange g = s.takesRange g ∧
        s.Publishes (.inTurn (List.replicate (if s.takesRange g l then 1 else 0)
          (.playback (.rangeChanged (count - 1))))) t := by
  cases l with
  | journal book => exact leads_modify.mpr ⟨hs, rfl, .quiet (.of_bus_eq rfl)⟩
  | reaction id =>
    have hnone : s.triggered? id (.job (.processingFinished g identity count problems)) = none := by
      simp [triggered?, hs]
    simp only [call, leads_bind, leads_get, hnone]
    exact leads_pure.mpr ⟨hs, rfl, .quiet (.refl s)⟩
  | follow id =>
    show Leads s (setRange tell id (count - 1) g) _
    simp only [setRange, leads_bind, leads_get]
    by_cases hg : (s.cursor id).generation ≤ g
    · generalize hsized : s.setCursor id { s.cursor id with
          maximum := count - 1, position := 0, generation := g } = sized
      have hquiet : s.Quiet sized := .of_bus_eq (hsized ▸ rfl)
      have hnone : sized.armed = [] := hsized ▸ hs
      rw [Cursor.setRange?_of_le hg]
      simp only [leads_bind, leads_modify, takesRange, hg, decide_true, if_true, hsized]
      refine (leads_tell hnone rfl).mpr ⟨hnone, ?_, .after_quiet hquiet (publishes_withEvent hnone rfl)⟩
      funext l
      cases l with
      | journal book | reaction id => rfl
      | follow other =>
        -- the cursor that took the range would take it again
        simp only [takesRange, cursor_withEvent, ← hsized, cursor_setCursor]
        split
        · rename_i hother
          simp [hother.1, hg]
        · rfl
    · rw [Cursor.setRange?, if_pos (Nat.not_le.mp hg)]
      simp only [takesRange, hg, decide_false, Bool.false_eq_true, if_false]
      exact leads_pure.mpr ⟨hs, rfl, .quiet (.refl s)⟩

/-- The handlers of a finished course. The induction is on those that are left. -/
theorem forM_call_plain (hs : s.armed = []) (g count problems : Nat) (identity : String) (ls : List Listener) :
    Leads s (ls.forM
      (call (followUp tell) (perform tell) (.job (.processingFinished g identity count problems)))) fun _ t =>
        t.armed = [] ∧ s.Publishes (.inTurn (List.replicate (ls.countP (s.takesRange g))
          (.playback (.rangeChanged (count - 1))))) t := by
  induction ls generalizing s with
  | nil => exact leads_pure.mpr ⟨hs, .quiet (.refl s)⟩
  | cons l ls ih =>
    refine leads_bind.mpr ((call_plain hs g count problems identity l).mono fun _ t ⟨ht, htakes, hfirst⟩ => ?_)
    refine (ih ht).mono fun _ u ⟨hu, hrest⟩ => ⟨hu, ?_⟩
    rw [htakes] at hrest
    have htree := hfirst.trans hrest
    rw [PublishTree.inTurn_append, List.replicate_append_replicate, Nat.add_comm] at htree
    rwa [List.countP_cons]

/-- **One publication without reactions**: each cursor that takes a range replies once, and nobody else replies. -/
theorem publish_plain (hs : s.armed = []) (e : Event) :
    Leads s (publish e) fun _ t => t.armed = [] ∧ s.Publishes (.cons e (s.replies e) .nil) t := by
  have hrecorded : (s.recorded e).armed = [] := hs
  have hcalled : Leads (s.recorded e) (callListeners e) fun _ u =>
      u.armed = [] ∧ (s.recorded e).Publishes (s.replies e) u := by
    have hmatching : (s.recorded e).bus.matching e = s.bus.matching e := by
      rw [Bus.matching, recorded, Bus.subscriptions_record, Bus.matching]
    simp only [callListeners, leads_bind, leads_get, hmatching]
    by_cases he : e.isFinish = true
    · unfold Event.isFinish at he
      split at he
      · exact forM_call_plain hrecorded _ _ _ _ _
      · cases he
    · have he := Bool.eq_false_iff.mpr he
      have hnil : s.replies e = .nil := by
        unfold replies
        split
        · cases he
        · rfl
      rw [hnil]
      exact (leads_forM_call hrecorded fun id _ => followUp_of_not_finish _ id he).mpr
        ⟨hs, .quiet (.of_bus_eq rfl)⟩
  obtain ⟨_, u, hrun, hu, hinner⟩ := hcalled
  exact leads_publish.mpr ⟨_, u, hrun, hu, .publication (.refl s) hrun hinner (.quiet (.refl _))⟩

end Step

namespace Session

open Step

variable {s t u : Session} {tree : PublishTree} {e : Event}

namespace PublishesPlain

/-- What is below an event is what its handlers publish. -/
theorem publishes (h : PublishesPlain s tree t) : Publishes s tree t := by
  induction h with
  | quiet hq => exact .quiet hq
  | @publication s r u t e answer later before unarmed published after ih =>
    obtain ⟨_, _, hrun, -, htree⟩ := publish_plain unarmed e
    cases hrun.symm.trans published
    exact .after_quiet before (htree.trans ih)

end PublishesPlain

/-- Operations make the publications of some tree. -/
structure Reaches (s t : Session) : Prop where
  unbroken : t.Unbroken
  tree : ∃ tree, s.Publishes tree t

theorem accepts_reaches : Accepts Unbroken Reaches tell where
  along :=
    { refl := fun s hs => ⟨hs, .nil, .quiet (.refl s)⟩
      trans := by
        rintro s t u ⟨-, a, ha⟩ ⟨hu, b, hb⟩
        exact ⟨hu, a.append b, ha.trans hb⟩
      keeps := fun _ h => h.unbroken }
  silent hs harmed hbus := ⟨fun r hr => hs r (harmed ▸ hr), .nil, .quiet (.of_bus_eq hbus)⟩
  publishes e s hs := ((accepts_progresses s.armed.length).publishes e s ⟨hs, Nat.le_refl _⟩).mono fun _ _ h =>
    ⟨h.unbroken hs, h.tree⟩

/-- A session with a new job, and a bus with one receiver. -/
def opened (setup : Setup) (config : BusConfig) : Session := { setup, bus := (Bus.attach { config }).1 }

end Session

end Toolpath
