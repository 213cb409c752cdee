import Toolpath.Proofs.Session.Passive
import Toolpath.Proofs.Session.Reentrancy

/-!
# What a session publishes

Every operation changes the session and publishes events, one after another; while the handlers of an
event run, they publish in turn.

* `Step.callListeners`: the handlers of an event, which publish by the same operation (`Step.leads_publish`).
* `Session.Publishes s tree t`: from `s` to `t` the publications of a tree are made. Each event of the tree has below it
  what its handlers publish.
* `Session.PublishesPlain s tree t`: below an event stand only the ranges that cursors take from it.
* `Step.Accepts P R tell`: one can go along `R` whenever `tell` is called and whenever the bus is left alone. All
  operations then go along `R` (`Accepts.operation`, `Accepts.performAll`).
-/

namespace Toolpath

namespace Session

variable {s t u : Session}

/-- The session in which the handlers of an event are called: the event is in the history. -/
def recorded (s : Session) (e : Event) : Session := { s with bus := s.bus.record e }

/-- The session in which the handlers of an event have returned: the receivers have the event. -/
def sent (s : Session) (e : Event) : Session := { s with bus := s.bus.broadcast e }

/-- History and receivers stay as they are; handlers may be added. -/
structure Quiet (s t : Session) : Prop where
  config : t.bus.config = s.bus.config
  log : t.bus.log = s.bus.log
  receivers : t.bus.receivers = s.bus.receivers
  subscriptions : s.bus.subscriptions <+: t.bus.subscriptions

namespace Quiet

theorem of_bus_eq (h : t.bus = s.bus) : Quiet s t where
  config := congrArg Bus.config h
  log := congrArg Bus.log h
  receivers := congrArg Bus.receivers h
  subscriptions := h ▸ List.prefix_rfl

theorem refl (s : Session) : Quiet s s := of_bus_eq rfl

theorem trans (h : Quiet s t) (h' : Quiet t u) : Quiet s u where
  config := h'.config.trans h.config
  log := h'.log.trans h.log
  receivers := h'.receivers.trans h.receivers
  subscriptions := h.subscriptions.trans h'.subscriptions

end Quiet

end Session

/-! ## One publication -/

namespace Step

open Session

variable {s : Session} {e : Event}

/-- Calls the handlers of an event. What they publish is published in the same way. -/
def callListeners (e : Event) : Step Unit := do
  ((← get).bus.matching e).forM (call (followUp tell) (perform tell) e)

/-- A publication, up to what its handlers do. -/
theorem leads_publish {Q : Except BusError Nat → Session → Prop} :
    Leads s (publish e) Q ↔
      Leads (s.recorded e) (callListeners e) fun _ u =>
        Q ((u.bus.broadcast e).reached (s.bus.matching e).length) (u.sent e) := by
  have hmatching : (s.recorded e).bus.matching e = s.bus.matching e := by
    rw [Bus.matching, recorded, Bus.subscriptions_record, Bus.matching]
  have heq : Leads s (publish e) Q ↔ Leads s (deliver (followUp tell) (perform tell) e) Q := by
    rw [Leads, publish_eq, Leads]
  rw [heq, leads_deliver]
  simp only [callListeners, leads_bind, leads_get, hmatching]
  rfl

end Step

/-! ## Many publications -/

namespace Session

open Step

/-- From one session to another the publications of a tree are made. Before each the bus is left alone; then the event
is recorded, its handlers are called and publish what stands below it, and the event is sent. -/
inductive Publishes : Session → PublishTree → Session → Prop where
  | quiet {s t : Session} (h : Quiet s t) : Publishes s .nil t
  | publication {s r u t : Session} {e : Event} {inner later : PublishTree} (before : Quiet s r)
    (called : (callListeners e).run (r.recorded e) = (.ok (), u)) (nested : Publishes (r.recorded e) inner u)
    (after : Publishes (u.sent e) later t) : Publishes s (.cons e inner later) t

namespace Publishes

variable {s t u : Session} {a b : PublishTree}

theorem after_quiet (h : Quiet s t) (ht : Publishes t a u) : Publishes s a u := by
  cases ht with
  | quiet h' => exact .quiet (h.trans h')
  | publication before called nested after => exact .publication (h.trans before) called nested after

theorem trans (h : Publishes s a t) (h' : Publishes t b u) : Publishes s (a.append b) u := by
  induction h with
  | quiet hq => exact after_quiet hq h'
  | publication before called nested after _ ih => exact .publication before called nested (ih h')

theorem subscriptions (h : Publishes s a t) : s.bus.subscriptions <+: t.bus.subscriptions := by
  induction h with
  | quiet hq => exact hq.subscriptions
  | @publication s r u t e inner later before called nested after ihNested ihAfter =>
    have hrecorded : (r.recorded e).bus.subscriptions = r.bus.subscriptions := Bus.subscriptions_record _ e
    exact before.subscriptions.trans ((hrecorded ▸ ihNested).trans ihAfter)

end Publishes

/-- Whether a listener is a cursor that takes the range of a course of the given generation: it does so unless its
own range is of a later one. -/
def takesRange (s : Session) (generation : Nat) : Listener → Bool
  | .follow id => (s.cursor id).generation ≤ generation
  | .journal _ | .reaction _ => false

/-- What is published while the handlers of an event run, if no reaction is to come: for a finished course, each
subscription of a cursor that takes its range publishes the range. -/
def replies (s : Session) (e : Event) : PublishTree :=
  match e with
  | .job (.processingFinished generation _ moveCount _) =>
    .inTurn (List.replicate ((s.bus.matching e).countP (s.takesRange generation))
      (.playback (.rangeChanged (moveCount - 1))))
  | _ => .nil

/-- From one session to another publications are made to which nobody replies but the cursors that follow. -/
inductive PublishesPlain : Session → PublishTree → Session → Prop where
  | quiet {s t : Session} (h : Quiet s t) : PublishesPlain s .nil t
  | publication {s r u t : Session} {e : Event} {answer : Except BusError Nat} {later : PublishTree}
    (before : Quiet s r) (unarmed : r.armed = []) (published : (publish e).run r = (.ok answer, u))
    (after : PublishesPlain u later t) : PublishesPlain s (.cons e (r.replies e) later) t

namespace PublishesPlain

variable {s t u : Session} {a b : PublishTree}

theorem after_quiet (h : Quiet s t) (ht : PublishesPlain t a u) : PublishesPlain s a u := by
  cases ht with
  | quiet h' => exact .quiet (h.trans h')
  | publication before unarmed published after => exact .publication (h.trans before) unarmed published after

theorem trans (h : PublishesPlain s a t) (h' : PublishesPlain t b u) : PublishesPlain s (a.append b) u := by
  induction h with
  | quiet hq => exact after_quiet hq h'
  | publication before unarmed published after ih => exact .publication before unarmed published (ih h')

end PublishesPlain

end Session

/-! ## Operations -/

namespace Step

open Session

variable {α : Type}

/-- One can go along a relation whenever an event is published, and whenever neither the bus nor the reactions
change. -/
structure Accepts (P : Session → Prop) (R : Session → Session → Prop) (tell : Publisher) : Prop where
  along : Along P R
  silent : ∀ {s t : Session}, P s → t.armed = s.armed → t.bus = s.bus → R s t
  publishes : ∀ e, Takes P R (tell e)

namespace Accepts

section Publisher

variable {P : Session → Prop} {R : Session → Session → Prop} {tell : Publisher}

theorem inSection (h : Accepts P R tell) (act : Job → Section α) : Takes P R (inSection tell act) := by
  refine .get_bind fun s => .bind h.along (.modify fun _ hs => h.silent hs rfl rfl) fun _ => ?_
  dsimp only
  cases (act s.job).announces with
  | none => exact .pure h.along _
  | some e => exact .bind h.along (h.publishes e) fun _ => .pure h.along _

theorem execute (h : Accepts P R tell) (run : Run) : Takes P R (execute tell run) := by
  refine .bind h.along (h.inSection _) fun started => ?_
  split
  · exact .pure h.along _
  · exact .get_bind fun _ => h.inSection _

theorem load (h : Accepts P R tell) (program : Program) : Takes P R (load tell program) :=
  .bind h.along (h.inSection _) fun run => h.execute run

theorem reload (h : Accepts P R tell) : Takes P R (reload tell) := by
  refine .get_bind fun _ => ?_
  split
  · exact h.load _
  · exact .pure h.along _

theorem selectWith (h : Accepts P R tell) (find : Snapshot → Nat → Except IndexError Move) :
    Takes P R (selectWith tell find) := by
  refine .get_bind fun _ => ?_
  dsimp only
  split
  · exact .pure h.along _
  · split
    · exact .pure h.along _
    · exact .bind h.along (h.publishes _) fun _ => .pure h.along _

theorem setRange (h : Accepts P R tell) (id maximum generation : Nat) :
    Takes P R (setRange tell id maximum generation) := by
  refine .get_bind fun _ => ?_
  split
  · exact .pure h.along _
  · exact .bind h.along (.modify fun _ hs => h.silent hs rfl rfl) fun _ => h.publishes _

theorem refresh (h : Accepts P R tell) (id : Nat) : Takes P R (refresh tell id) :=
  .get_bind fun _ => .bind h.along (h.setRange id _ _) fun _ => .pure h.along _

theorem landOn (h : Accepts P R tell) (id index : Nat) : Takes P R (landOn tell id index) := by
  refine .bind h.along (h.selectWith _) fun selected => ?_
  split
  · exact .pure h.along _
  · exact .bind h.along (.modify fun _ hs => h.silent hs rfl rfl) fun _ => .pure h.along _

theorem landOn? (h : Accepts P R tell) (id : Nat) (index : Option Nat) :
    Takes P R (landOn? tell id index) := by
  cases index with
  | none => exact .pure h.along _
  | some index => exact .bind h.along (h.landOn id index) fun _ => .pure h.along _

theorem seek (h : Accepts P R tell) (id index : Nat) : Takes P R (seek tell id index) := by
  refine .get_bind fun _ => ?_
  dsimp only
  split
  · exact .pure h.along _
  · exact h.landOn id index

theorem toggle (h : Accepts P R tell) (id : Nat) : Takes P R (toggle tell id) :=
  .get_bind fun _ => .bind h.along (.modify fun _ hs => h.silent hs rfl rfl) fun _ =>
    .bind h.along (h.publishes _) fun _ => .pure h.along _

theorem pause (h : Accepts P R tell) (id : Nat) : Takes P R (pause tell id) := by
  refine .get_bind fun _ => ?_
  dsimp only
  split
  · exact .bind h.along (.modify fun _ hs => h.silent hs rfl rfl) fun _ => h.publishes _
  · exact .pure h.along _

/-- What a reaction does, if it breaks nothing off. -/
theorem perform (h : Accepts P R tell) {deed : Deed} (hd : deed ≠ .abort) : Takes P R (perform tell deed) := by
  cases deed with
  | cancel => exact .discard (h.inSection _)
  | reset => exact h.inSection _
  | reload => exact .discard h.reload
  | load program => exact .discard (h.load program)
  | abort => exact absurd rfl hd
  | pause id => exact h.pause id
  | toggle id => exact .discard (h.toggle id)
  | seek id index => exact .discard (h.seek id index)

end Publisher

/-! ### Files, workers and clocks -/

variable {P : Session → Prop} {R : Session → Session → Prop}

theorem opened (h : Accepts P R tell) (path : String) (content : Except FileError String) :
    Takes P R (opened path content) := by
  cases content with
  | ok text => exact .pure h.along _
  | error cause => exact .bind h.along (h.inSection _) fun _ => .pure h.along _

theorem loadFile (h : Accepts P R tell) (path : String) (content : Except FileError String) :
    Takes P R (loadFile path content) := by
  refine .bind h.along (h.opened path content) fun program => ?_
  split
  · exact h.load _
  · exact .pure h.along _

theorem dispatch (h : Accepts P R tell) (hasWorker : Bool) (program : Program) :
    Takes P R (dispatch hasWorker program) := by
  unfold Step.dispatch
  split
  · exact .bind h.along (h.inSection _) fun _ => .pure h.along _
  · exact .pure h.along _

theorem dispatchReload (h : Accepts P R tell) (hasWorker : Bool) : Takes P R (dispatchReload hasWorker) := by
  refine .get_bind fun _ => ?_
  split
  · exact .pure h.along _
  · exact .pure h.along _
  · exact h.dispatch true _

theorem dispatchFile (h : Accepts P R tell) (path : String) (content : Except FileError String) :
    Takes P R (dispatchFile path content) := by
  refine .bind h.along (h.opened path content) fun program => ?_
  split
  · exact h.dispatch true _
  · exact .pure h.along _

theorem inBackground (h : Accepts P R tell) (run : Run) : Takes P R (inBackground run) :=
  fun s hs => leads_tryCatch (h.execute run s hs)

theorem playRound (h : Accepts P R tell) (id : Nat) : Takes P R (playRound tell id) := by
  refine .bind h.along (.get_bind fun _ => h.landOn? id _) fun reached => ?_
  split
  · exact .pure h.along _
  · refine .get_bind fun _ => ?_
    split
    · exact .bind h.along (h.pause id) fun _ => .bind h.along (h.publishes _) fun _ => .pure h.along _
    · exact .pure h.along _

/-- Playing, by the recursion of its ticks. -/
theorem playFrom (h : Accepts P R tell) (id : Nat) (played : Played) {s : Session} (hs : P s) :
    ∃ result t, playFrom id played s = (.ok result, t) ∧ R s t := by
  fun_induction Toolpath.playFrom id played s with
  | case1 played s _ e next hround =>
    obtain ⟨_, _, hok, -⟩ := h.playRound id s hs
    cases hok.symm.trans hround
  | case2 played s _ cause next hround =>
    obtain ⟨_, _, hok, hR⟩ := h.playRound id s hs
    cases hok.symm.trans hround
    exact ⟨_, _, rfl, hR⟩
  | case3 played s _ moved next hround =>
    obtain ⟨_, _, hok, hR⟩ := h.playRound id s hs
    cases hok.symm.trans hround
    exact ⟨_, _, rfl, hR⟩
  | case4 played s _ moved next hround _ ih =>
    obtain ⟨_, _, hok, hR⟩ := h.playRound id s hs
    cases hok.symm.trans hround
    obtain ⟨result, t, hplay, hR'⟩ := ih (h.along.keeps hs hR)
    exact ⟨result, t, hplay, h.along.trans hR hR'⟩
  | case5 played s _ moved next hround _ =>
    obtain ⟨_, _, hok, hR⟩ := h.playRound id s hs
    cases hok.symm.trans hround
    exact ⟨_, _, rfl, hR⟩
  | case6 played s _ => exact ⟨_, _, rfl, h.along.refl s hs⟩

theorem playEvery (h : Accepts P R tell) {interval : Nat} (hi : interval ≠ 0) (id : Nat) :
    Takes P R (playEvery interval id) := by
  intro s hs
  rw [Step.playEvery, if_neg hi]
  exact h.playFrom id {} hs

theorem newCursor (h : Accepts P R tell) : Takes P R newCursor :=
  .get_bind fun _ => .bind h.along (.modify fun _ hs => h.silent hs rfl rfl) fun _ =>
    .bind h.along (.discard (h.refresh _)) fun _ => .pure h.along _

end Accepts

end Step

namespace Operation

/-- Whether an operation arms a reaction. -/
def isArm : Operation → Bool
  | .arm _ _ => true
  | _ => false

/-- Whether an operation breaks nothing off: there is time between its ticks, and its reaction does not
abort. -/
def isSafe : Operation → Bool
  | .arm _ deed => deed ≠ .abort
  | .play interval _ => interval ≠ 0
  | _ => true

end Operation

namespace Step.Accepts

open Session

variable {P : Session → Prop} {R : Session → Session → Prop}

/-- **One operation**, given what becomes of a session that is listened to and of one in which a reaction is armed. -/
theorem operation (h : Accepts P R tell) (hl : ∀ filter l, Takes P R (listen filter l)) {operation : Operation}
    (ha : operation.isArm = true → operation.isSafe = true → Takes P R operation.perform)
    (hsafe : operation.isSafe = true) : Takes P R operation.perform := by
  have hreturn {α : Type} {m : Step α} {f : α → Operation.Outcome} (hm : Takes P R m) :
      Takes P R (m >>= fun a => pure (f a)) := .bind h.along hm fun _ => .pure h.along _
  cases operation with
  | load program => exact hreturn (h.load program)
  | reload => exact hreturn h.reload
  | loadFile path content => exact hreturn (h.loadFile path content)
  | dispatch hasWorker program => exact hreturn (.discard (h.dispatch hasWorker program))
  | dispatchReload hasWorker => exact hreturn (.discard (h.dispatchReload hasWorker))
  | dispatchFile path content => exact hreturn (.discard (h.dispatchFile path content))
  | work run => exact hreturn (h.inBackground run)
  | cancel => exact hreturn (.discard (h.inSection _))
  | reset => exact hreturn (h.inSection _)
  | select index => exact hreturn (.discard (h.selectWith _))
  | selectMove id => exact hreturn (.discard (h.selectWith _))
  | newCursor => exact hreturn h.newCursor
  | refresh cursor => exact hreturn (.discard (h.refresh cursor))
  | stepForward cursor => exact hreturn (.get_bind fun _ => h.landOn? cursor _)
  | stepBack cursor => exact hreturn (.get_bind fun _ => h.landOn? cursor _)
  | seek cursor index => exact hreturn (h.seek cursor index)
  | toggle cursor => exact hreturn (.discard (h.toggle cursor))
  | pause cursor => exact hreturn (h.pause cursor)
  | play interval cursor => exact hreturn (.discard (h.playEvery (of_decide_eq_true hsafe) cursor))
  | follow cursor => exact hreturn (.discard (hl _ _))
  | journal filter =>
    refine hreturn (.discard (.get_bind fun _ => .bind h.along (.modify fun _ hs => h.silent hs rfl rfl) fun _ => ?_))
    exact .bind h.along (hl _ _) fun _ => .pure h.along _
  | arm trigger deed => exact ha rfl hsafe

/-- **All operations.** -/
theorem performAll (h : Along P R) {operations : List Operation}
    (hop : ∀ operation ∈ operations, Takes P R operation.perform) : Takes P R (Operation.performAll operations) := by
  induction operations with
  | nil => exact .pure h _
  | cons operation rest ih =>
    refine .bind h (hop operation List.mem_cons_self) fun _ => .bind h (ih fun x hx => ?_) fun _ => .pure h _
    exact hop x (List.mem_cons_of_mem _ hx)

end Step.Accepts

end Toolpath
