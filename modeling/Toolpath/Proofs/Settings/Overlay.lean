import Toolpath.Proofs.Record.Written
import Toolpath.Settings

/-!
# Partial settings

The fields of `Config` and its sections have defaults. A tree of settings may lack sections and keys,
and may hold keys that nothing asks for. What it gives is taken, and all else has its default.

* `Value.Trims`: a table from which keys were removed and to which others were added.
  `Value.Trims.fields?`: the fields that a record finds in it.
* `Setup.retain`, `Settings.retain`: the values of the keys that are kept, and the defaults of the others.
* `Setup.ofValue?_trims`, `JobSettings.ofValue?_trims`, `PlaybackSettings.ofValue?_trims`,
  `LoggingSettings.ofValue?_trims`: the sections.
* `Settings.ofValue?_trimmed`: all settings.
-/

namespace Toolpath

open Number (twoTo)

/-! ## Tables without some keys and with others -/

namespace Value

/-- Whether a table holds, of the keys of a record, those that are kept of another table. The order of its
entries does not matter, and neither does what it holds under other keys. -/
def Trims (names : List String) (keep : String → Bool) : Value → Value → Prop
  | .table original, .table entries =>
    (entries.filter fun entry => names.contains entry.1).Perm (original.filter fun entry => keep entry.1)
  | _, _ => False

theorem valuesOf_filter_known {names : List String} {key : String} (h : key ∈ names)
    (entries : List (String × Value)) :
    valuesOf key (entries.filter fun entry => names.contains entry.1) = valuesOf key entries := by
  unfold valuesOf
  rw [List.filter_filter]
  congr 2
  funext entry
  by_cases hk : entry.1 = key
  · simp [hk, h]
  · simp [hk]

theorem valuesOf_filter_keep (keep : String → Bool) (key : String) (entries : List (String × Value)) :
    valuesOf key (entries.filter fun entry => keep entry.1) =
      if keep key then valuesOf key entries else [] := by
  unfold valuesOf
  rw [List.filter_filter]
  cases hk : keep key with
  | true =>
    rw [if_pos rfl]
    congr 2
    funext entry
    by_cases he : entry.1 = key
    · simp [he, hk]
    · simp [he]
  | false =>
    rw [if_neg Bool.false_ne_true, List.map_eq_nil_iff, List.filter_eq_nil_iff]
    intro entry _ hb
    simp only [Bool.and_eq_true, decide_eq_true_eq] at hb
    rw [hb.1, hk] at hb
    cases hb.2

/-- The field of a key is there exactly if the key is kept. -/
theorem field?_of_perm {names : List String} (hn : names.Nodup) {values : List Value} {keep : String → Bool}
    {entries : List (String × Value)}
    (h : (entries.filter fun entry => names.contains entry.1).Perm
      ((names.zip values).filter fun entry => keep entry.1))
    {key : String} {v : Value} (hkey : (key, v) ∈ names.zip values) :
    field? entries key = some (if keep key then some v else none) := by
  have hperm : (valuesOf key entries).Perm (if keep key then [v] else []) := by
    rw [← valuesOf_filter_known (List.of_mem_zip hkey).1, ← valuesOf_zip hn hkey, ← valuesOf_filter_keep]
    exact (h.filter _).map _
  unfold field?
  cases hk : keep key with
  | true =>
    rw [hk] at hperm
    rw [hperm.eq_singleton]
    rfl
  | false =>
    rw [hk] at hperm
    rw [hperm.eq_nil]
    rfl

/-- **The fields of a trimmed record.** -/
theorem Trims.fields? {names : List String} (hn : names.Nodup) {values : List Value}
    (hl : values.length = names.length) {keep : String → Bool} {v : Value}
    (h : Trims names keep (.table (names.zip values)) v) (d : Dialect) (completeness : Completeness) :
    v.fields? d completeness names =
      some ((names.zip values).map fun entry => if keep entry.1 then some entry.2 else none) := by
  cases v with
  | table entries =>
    have hfields : ∀ part : List (String × Value), (∀ entry ∈ part, entry ∈ names.zip values) →
        (part.map Prod.fst).mapM (field? entries) =
          some (part.map fun entry => if keep entry.1 then some entry.2 else none) := by
      intro part hpart
      induction part with
      | nil => rfl
      | cons entry part ih =>
        obtain ⟨he, hpart⟩ := List.forall_mem_cons.mp hpart
        simp [List.mapM_cons, field?_of_perm hn h he, ih hpart]
    have := hfields (names.zip values) fun _ he => he
    rwa [List.map_fst_zip (Nat.le_of_eq hl.symm)] at this
  | _ => cases h

/-- A table from which nothing was removed, and to which nothing was added. -/
theorem Trims.refl (names : List String) (values : List Value) :
    Trims names (fun _ => true) (.table (names.zip values)) (.table (names.zip values)) := by
  have hknown : ((names.zip values).filter fun entry => names.contains entry.1) = names.zip values := by
    rw [List.filter_eq_self]
    exact fun entry he => List.contains_iff_mem.mpr (List.of_mem_zip he).1
  have hkept : ((names.zip values).filter fun _ => true) = names.zip values :=
    List.filter_eq_self.mpr fun _ _ => rfl
  simp only [Trims, hknown, hkept]
  exact .rfl

/-- A field that is read if it is kept. -/
theorem orDefault?_kept {α : Type} {item : Value → Option α} {v : Value} {x : α} (h : item v = some x)
    (usual : α) (keep : Bool) :
    orDefault? usual item (if keep then some v else none) = some (if keep then x else usual) := by
  cases keep with
  | true => exact h
  | false => rfl

end Value

open Value

/-! ## Scalars and positions -/

theorem nat?_nat {n : Nat} (h : n < twoTo 64) : nat? (.nat n) = some n := by
  simp [nat?, nat, natBelow?, h]

theorem Position.ofValue?_toValue (d : Dialect) (p : Position) : Position.ofValue? d p.toValue = some p := by
  unfold ofValue? toValue
  rw [fields?_zip (by decide) rfl]
  rfl

theorem OffsetTable.ofValue?_toValue (d : Dialect) (t : OffsetTable) :
    OffsetTable.ofValue? d t.toValue = some t := by
  have hall : (t.toList.map Position.toValue).mapM (Position.ofValue? d) = some t.toList :=
    (mapM_map_guarded (c := fun _ => true) t.toList fun p _ => Position.ofValue?_toValue d p).trans (by simp)
  have hfirst : d.firstItems? 6 (t.toList.map Position.toValue) = some (t.toList.map Position.toValue) := rfl
  unfold ofValue? toValue
  simp only [hfirst, Option.bind_eq_bind, Option.bind_some, hall, ofList?_toList]

/-! ## Sections -/

/-- The keys of a setup that are kept, with defaults for the others. -/
def Setup.retain (keep : String → Bool) (s : Setup) : Setup :=
  let usual : Setup := {}
  { units := if keep "initial_units" then s.units else usual.units
    plane := if keep "initial_plane" then s.plane else usual.plane
    distanceMode := if keep "initial_distance_mode" then s.distanceMode else usual.distanceMode
    motionMode := if keep "initial_motion_mode" then s.motionMode else usual.motionMode
    arcTolerance := if keep "arc_tolerance" then s.arcTolerance else usual.arcTolerance
    workOffsets := if keep "work_offsets" then s.workOffsets else usual.workOffsets }

/-- The keys of a job's settings that are kept, with defaults for the others. -/
def JobSettings.retain (keep : String → Bool) (s : JobSettings) : JobSettings :=
  let usual : JobSettings := {}
  { eventChannelCapacity :=
      if keep "event_channel_capacity" then s.eventChannelCapacity else usual.eventChannelCapacity
    eventHistory := if keep "event_history" then s.eventHistory else usual.eventHistory
    eventHistorySize := if keep "event_history_size" then s.eventHistorySize else usual.eventHistorySize }

/-- The keys of a cursor's settings that are kept, with defaults for the others. -/
def PlaybackSettings.retain (keep : String → Bool) (s : PlaybackSettings) : PlaybackSettings :=
  let usual : PlaybackSettings := {}
  { stepIntervalMs := if keep "step_interval_ms" then s.stepIntervalMs else usual.stepIntervalMs }

/-- The keys of logging that are kept, with defaults for the others. -/
def LoggingSettings.retain (keep : String → Bool) (s : LoggingSettings) : LoggingSettings :=
  let usual : LoggingSettings := {}
  { level := if keep "level" then s.level else usual.level
    json := if keep "json" then s.json else usual.json }

section Sections

variable (d : Dialect) {keep : String → Bool} {v : Value}

theorem Setup.ofValue?_trims (s : Setup) (h : Trims keys keep s.toValue v) :
    Setup.ofValue? d v = some (s.retain keep) := by
  have hunits : named? d Units.all Units.name (.string s.units.name) = some s.units := by
    cases s.units <;> rfl
  have hplane : named? d Plane.all Plane.name (.string s.plane.name) = some s.plane := by
    cases s.plane <;> rfl
  have hdistance : named? d DistanceMode.all DistanceMode.name (.string s.distanceMode.name) =
      some s.distanceMode := by
    cases s.distanceMode <;> rfl
  have hmotion : named? d MotionKind.all MotionKind.name (.string s.motionMode.name) =
      some s.motionMode := by
    cases s.motionMode <;> rfl
  have htolerance : float? (.real s.arcTolerance) = some s.arcTolerance := rfl
  unfold ofValue?
  rw [h.fields? (by decide) rfl]
  dsimp only [Option.bind_eq_bind, Option.bind_some, List.map, List.zip, List.zipWith, keys]
  rw [orDefault?_kept hunits, orDefault?_kept hplane, orDefault?_kept hdistance, orDefault?_kept hmotion,
    orDefault?_kept htolerance, orDefault?_kept (OffsetTable.ofValue?_toValue d s.workOffsets)]
  rfl

theorem JobSettings.ofValue?_trims {s : JobSettings} (hc : s.eventChannelCapacity < twoTo 64)
    (hs : s.eventHistorySize < twoTo 64) (h : Trims keys keep s.toValue v) :
    JobSettings.ofValue? d v = some (s.retain keep) := by
  have hhistory : bool? (.bool s.eventHistory) = some s.eventHistory := rfl
  unfold ofValue?
  rw [h.fields? (by decide) rfl]
  dsimp only [Option.bind_eq_bind, Option.bind_some, List.map, List.zip, List.zipWith, keys]
  rw [orDefault?_kept (nat?_nat hc), orDefault?_kept hhistory, orDefault?_kept (nat?_nat hs)]
  rfl

theorem PlaybackSettings.ofValue?_trims {s : PlaybackSettings} (hi : s.stepIntervalMs < twoTo 64)
    (h : Trims keys keep s.toValue v) : PlaybackSettings.ofValue? d v = some (s.retain keep) := by
  unfold ofValue?
  rw [h.fields? (by decide) rfl]
  dsimp only [Option.bind_eq_bind, Option.bind_some, List.map, List.zip, List.zipWith, keys]
  rw [orDefault?_kept (nat?_nat hi)]
  rfl

theorem LoggingSettings.ofValue?_trims (s : LoggingSettings) (h : Trims keys keep s.toValue v) :
    LoggingSettings.ofValue? d v = some (s.retain keep) := by
  have hlevel : string? (.string s.level) = some s.level := rfl
  have hjson : bool? (.bool s.json) = some s.json := rfl
  unfold ofValue?
  rw [h.fields? (by decide) rfl]
  dsimp only [Option.bind_eq_bind, Option.bind_some, List.map, List.zip, List.zipWith, keys]
  rw [orDefault?_kept hlevel, orDefault?_kept hjson]
  rfl

end Sections

/-! ## All settings -/

namespace Settings

/-- Settings whose sizes are numbers of 64 bits. -/
structure Fits (s : Settings) : Prop where
  eventChannelCapacity : s.job.eventChannelCapacity < twoTo 64
  eventHistorySize : s.job.eventHistorySize < twoTo 64
  stepIntervalMs : s.playback.stepIntervalMs < twoTo 64

/-- The sections of settings that are kept, and in each the keys that are kept. -/
structure Kept where
  sections : String → Bool
  keys : String → String → Bool

/-- Everything is kept. -/
def Kept.all : Kept := ⟨fun _ => true, fun _ _ => true⟩

/-- The keys of settings that are kept, with defaults for the others. -/
def retain (kept : Kept) (s : Settings) : Settings where
  interpreter := if kept.sections "interpreter" then s.interpreter.retain (kept.keys "interpreter") else {}
  job := if kept.sections "job" then s.job.retain (kept.keys "job") else {}
  playback := if kept.sections "playback" then s.playback.retain (kept.keys "playback") else {}
  logging := if kept.sections "logging" then s.logging.retain (kept.keys "logging") else {}

/-- Whether a tree is that of settings from which sections and keys of sections were removed, and to which, in
the whole and in the sections, any other keys were added. -/
def Trimmed (kept : Kept) (s : Settings) (v : Value) : Prop :=
  ∃ interpreter job playback logging,
    Trims Setup.keys (kept.keys "interpreter") s.interpreter.toValue interpreter ∧
      Trims JobSettings.keys (kept.keys "job") s.job.toValue job ∧
      Trims PlaybackSettings.keys (kept.keys "playback") s.playback.toValue playback ∧
      Trims LoggingSettings.keys (kept.keys "logging") s.logging.toValue logging ∧
      Trims keys kept.sections (.table (keys.zip [interpreter, job, playback, logging])) v

theorem retain_all (s : Settings) : s.retain .all = s := rfl

theorem trimmed_all (s : Settings) : s.Trimmed .all s.toValue :=
  ⟨_, _, _, _, .refl _ _, .refl _ _, .refl _ _, .refl _ _, .refl _ _⟩

theorem ofValue?_of_trimmed (d : Dialect) {s : Settings} (hs : s.Fits) {kept : Kept} {v : Value}
    (h : s.Trimmed kept v) : ofValue? d v = some (s.retain kept) := by
  obtain ⟨interpreter, job, playback, logging, hi, hj, hp, hl, h⟩ := h
  unfold ofValue?
  rw [h.fields? (by decide) rfl]
  dsimp only [Option.bind_eq_bind, Option.bind_some, List.map, List.zip, List.zipWith, keys]
  rw [orDefault?_kept (Setup.ofValue?_trims d _ hi),
    orDefault?_kept (JobSettings.ofValue?_trims d hs.eventChannelCapacity hs.eventHistorySize hj),
    orDefault?_kept (PlaybackSettings.ofValue?_trims d hs.stepIntervalMs hp),
    orDefault?_kept (LoggingSettings.ofValue?_trims d _ hl)]
  rfl

theorem ofValue?_toValue (d : Dialect) {s : Settings} (hs : s.Fits) : ofValue? d s.toValue = some s := by
  rw [ofValue?_of_trimmed d hs s.trimmed_all, retain_all]

/-- **What is given is taken, and all else has its default.** If nothing was removed, the settings come back. -/
theorem ofValue?_trimmed (d : Dialect) {s : Settings} (hs : s.Fits) (kept : Kept) {v : Value}
    (h : s.Trimmed kept v) : ofValue? d v = some (s.retain kept) ∧ s.retain .all = s :=
  ⟨ofValue?_of_trimmed d hs h, s.retain_all⟩

/-- Two sections are left out, one lacks a key and has its other keys in another order, and two keys are
unknown. -/
theorem ofValue?_of_two_sections :
    let s : Settings :=
      { job := { eventHistory := true, eventHistorySize := 5 }, playback := { stepIntervalMs := 75 },
        logging := { level := "debug" } }
    let kept : Kept :=
      ⟨fun name => name = "job" || name = "playback", fun _ key => key ≠ "event_history_size"⟩
    let tree : Value := .table [("color", .null),
      ("playback", .table [("step_interval_ms", .nat 75), ("unit", .string "ms")]),
      ("job", .table [("event_history", .bool true), ("event_channel_capacity", .nat 256)])]
    s.Fits ∧ s.Trimmed kept tree ∧
      ofValue? .toml tree =
        some { job := { eventHistory := true }, playback := { stepIntervalMs := 75 } } := by
  intro s kept tree
  have hfits : s.Fits := ⟨by decide, by decide, by decide⟩
  have htrimmed : s.Trimmed kept tree :=
    ⟨s.interpreter.toValue, .table [("event_history", .bool true), ("event_channel_capacity", .nat 256)],
      .table [("step_interval_ms", .nat 75), ("unit", .string "ms")], s.logging.toValue, List.Perm.of_eq rfl,
      List.Perm.swap _ _ _, List.Perm.of_eq rfl, List.Perm.of_eq rfl, List.Perm.swap _ _ _⟩
  exact ⟨hfits, htrimmed, (ofValue?_trimmed .toml hfits kept htrimmed).1⟩

end Settings

end Toolpath
