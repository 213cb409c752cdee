import Toolpath.Proofs.Machine.Effect
import Toolpath.Proofs.Record.Written
import Toolpath.Proofs.Settings.Overlay

/-!
# Settings files

`Config.save_to_file` is all or nothing as far as the settings themselves decide it: they are checked
and written out before anything is changed on the disk. What was saved is loaded again, and
`load_from_file` and `load_or_default` return no settings that cannot be used.

* `Files.read_write`, `Files.readText_write`: what is written to a file is read from it.
* `FileFormat.ReadsBack`: a text from which its format reads the tree that was written;
  `FileFormat.readsBack_json` gives settings of which this is so.
* `Settings.store_outcome`: all that saving can do.
* `Settings.store_of_refusal`, `Settings.load_store`, `Settings.problem?_of_load`: the parts of
  `Settings.store_safe`.
-/

namespace Toolpath

/-! ## Written files -/

namespace Path

/-- A path that does not end with a slash has none to lose. -/
theorem withoutSlash_of_not {path : String} (h : endsWithSlash path = false) : withoutSlash path = path := by
  have hlast : path.toList.reverse.dropWhile (· = '/') = path.toList.reverse := by
    cases hr : path.toList.reverse with
    | nil => rfl
    | cons c rest =>
      have hc : path.toList.getLast? = some c := by
        rw [← List.head?_reverse, hr]
        rfl
      have hne : c ≠ '/' := by
        rintro rfl
        simp [endsWithSlash, hc] at h
      rw [List.dropWhile_cons_of_neg (by simpa using hne)]
  simp only [withoutSlash, hlast, List.reverse_reverse]
  split
  · rename_i hnil
    rw [List.take_of_length_le (by rw [hnil]; exact Nat.zero_le 1), String.ofList_toList]
  · exact String.ofList_toList

end Path

namespace Files

variable {fs : Files} {place next names : List String} {content : ByteArray}

/-- Where directories stand does not depend on the files. -/
theorem entity?_eq_directory_iff :
    fs.entity? place = some .directory ↔
      (place.isPrefixOf fs.working || fs.directories.contains place) = true := by
  unfold entity?
  split
  · rename_i h
    exact iff_of_true rfl h
  · rename_i h
    refine iff_of_false (fun hd => ?_) h
    cases hf : fs.files.find? fun f => f.1 = place with
    | none => simp [hf] at hd
    | some f => simp [hf] at hd

theorem entity?_put_of_directory (h : fs.entity? place = some .directory) :
    (fs.put names content).entity? place = some .directory := by
  rw [entity?_eq_directory_iff] at h ⊢
  exact h

theorem entity?_put_self (h : fs.entity? names ≠ some .directory) :
    (fs.put names content).entity? names = some (.file content) := by
  rw [Ne, entity?_eq_directory_iff] at h
  have hput : ¬ (names.isPrefixOf (fs.put names content).working ||
      (fs.put names content).directories.contains names) = true := h
  have hfind : (fs.put names content).files.find? (fun f => f.1 = names) = some (names, content) :=
    List.find?_cons_of_pos (decide_eq_true rfl)
  rw [entity?, if_neg hput, hfind]
  rfl

theorem follow_put {piece : String} (h : fs.follow place piece = .ok next) :
    (fs.put names content).follow place piece = .ok next := by
  unfold follow at h ⊢
  split at h
  · cases h
  · cases h
  · rename_i hdir
    rw [entity?_put_of_directory hdir]
    exact h

/-- A path leads through directories, so it leads to the same place when a file has changed. -/
theorem resolve_put {path : String} (h : fs.resolve path = .ok place) :
    (fs.put names content).resolve path = .ok place := by
  have hfold : ∀ (pieces start : List String), pieces.foldlM fs.follow start = .ok place →
      pieces.foldlM (fs.put names content).follow start = .ok place := by
    intro pieces
    induction pieces with
    | nil => exact fun start h => h
    | cons piece pieces ih =>
      intro start h
      rw [List.foldlM_cons] at h ⊢
      obtain ⟨next, hnext, h⟩ := exists_of_bind_ok h
      rw [follow_put hnext]
      exact ih next h
  unfold resolve at h ⊢
  split at h
  · cases h
  · rename_i hpath
    rw [if_neg hpath]
    exact hfold _ _ h

/-- A file is written where its path leads, if there is no directory. -/
theorem write_ok {path : String} {fs' : Files} (h : fs.write path content = .ok fs') :
    ∃ names, fs.resolve path = .ok names ∧ fs.entity? names ≠ some .directory ∧ fs' = fs.put names content := by
  unfold write at h
  obtain ⟨names, hplace, h⟩ := exists_of_bind_ok h
  split at h
  · cases h
  · rename_i hslash
    rw [Path.withoutSlash_of_not (Bool.eq_false_iff.mpr hslash)] at hplace
    split at h
    · cases h
    · rename_i hne
      cases h
      exact ⟨names, hplace, hne, rfl⟩

/-- **What is written to a file is read from it.** -/
theorem read_write {path : String} {fs' : Files} (h : fs.write path content = .ok fs') :
    fs'.read path = .ok content := by
  obtain ⟨names, hplace, hne, rfl⟩ := write_ok h
  simp only [read, resolve_put hplace, bind, Except.bind, entity?_put_self hne]

theorem readText_write {path text : String} {fs' : Files} (h : fs.write path text.toUTF8 = .ok fs') :
    fs'.readText path = .ok text := by
  have hutf : String.fromUTF8? text.toUTF8 = some text := by
    unfold String.fromUTF8?
    rw [String.toUTF8_eq_toByteArray, dif_pos text.isValidUTF8]
    rfl
  simp only [readText, read_write h, bind, Except.bind, hutf]

end Files

/-! ## Texts of settings -/

namespace FileFormat

/-- The tree that a text holds. -/
def tree? (format : FileFormat) (text : String) : Option Value :=
  match format with
  | .json => Json.read? text
  | .toml => Toml.read? text

/-- Whether the text of settings, if there is one, holds the tree that was written. -/
def ReadsBack (format : FileFormat) (s : Settings) : Prop :=
  ∀ text, format.encode s = .ok text → format.tree? text = some s.toValue

theorem decode_of_readsBack {format : FileFormat} {s : Settings} (hs : s.Fits) (h : format.ReadsBack s)
    {text : String} (ht : format.encode s = .ok text) : format.decode text = .ok s := by
  have htree := h text ht
  unfold decode
  cases format with
  | json =>
    have hread : Json.read? text = some s.toValue := htree
    simp only [hread, Option.bind_some, Settings.ofValue?_toValue _ hs]
  | toml =>
    have hread : Toml.read? text = some s.toValue := htree
    simp only [hread, Option.bind_some, Settings.ofValue?_toValue _ hs]

theorem holdsWords_toValue {s : Settings} (hs : s.Fits) : Json.holdsWords s.toValue = true := by
  have hoffsets : Json.holdsWords s.interpreter.workOffsets.toValue = true :=
    Json.itemsHoldWords_of_forall fun v hv => by
      obtain ⟨p, -, rfl⟩ := List.mem_map.mp hv
      exact p.holdsWords_toValue
  have hinterpreter : Json.holdsWords s.interpreter.toValue = true := by
    refine Json.holdsWords_zip _ ?_
    simp only [List.forall_mem_cons, List.not_mem_nil, false_imp_iff, implies_true, hoffsets, Json.holdsWords, and_self]
  have hjob : Json.holdsWords s.job.toValue = true := by
    refine Json.holdsWords_zip _ ?_
    simp only [List.forall_mem_cons, List.not_mem_nil, false_imp_iff, implies_true,
      Json.holdsWords_nat hs.eventChannelCapacity, Json.holdsWords_nat hs.eventHistorySize, Json.holdsWords, and_self]
  have hplayback : Json.holdsWords s.playback.toValue = true := by
    refine Json.holdsWords_zip _ ?_
    simp only [List.forall_mem_cons, List.not_mem_nil, false_imp_iff, implies_true,
      Json.holdsWords_nat hs.stepIntervalMs, and_self]
  refine Json.holdsWords_zip _ ?_
  simp only [List.forall_mem_cons, List.not_mem_nil, false_imp_iff, implies_true, hinterpreter, hjob, hplayback,
    true_and, and_true]
  rfl

/-- A JSON text holds the tree that was written if `serde_json` reads each of its doubles as it was written. -/
theorem readsBack_json {s : Settings} (hs : s.Fits) (he : Json.isExact s.toValue = true) : json.ReadsBack s := by
  intro text ht
  rw [encode, Except.ok.injEq] at ht
  rw [tree?, ← ht]
  exact Json.read?_pretty_of_isExact (holdsWords_toValue hs) he

end FileFormat

/-! ## Saving and loading -/

/-- Whether an error comes from the disk, and not from the settings or the name of their file. -/
def SettingsError.isOfDisk : SettingsError → Bool
  | .file _ _ => true
  | _ => false

namespace Settings

theorem check_ok {s found : Settings} (h : s.check = .ok found) : found = s ∧ s.problem? = none := by
  unfold check at h
  split at h
  · cases h
  · cases h
    exact ⟨rfl, ‹_›⟩

theorem check_of_problem?_eq_none {s : Settings} (h : s.problem? = none) : s.check = .ok s := by
  rw [check, h]

theorem textFor_ok {s : Settings} {path text : String} (h : s.textFor path = .ok text) :
    s.problem? = none ∧ ∃ format, FileFormat.ofPath path = .ok format ∧ format.encode s = .ok text := by
  obtain ⟨checked, hc, hrest⟩ := exists_of_bind_ok h
  obtain ⟨format, hf, he⟩ := exists_of_bind_ok hrest
  obtain ⟨rfl, hp⟩ := check_ok hc
  exact ⟨hp, format, hf, he⟩

/-- All that saving can do: it refuses the settings or the name of the file, it fails on the disk, or it writes
the text of the settings. -/
inductive Outcome (s : Settings) (path : String) (fs : Files) : Except SettingsError Unit × Files → Prop where
  | refused {cause : SettingsError} (h : s.textFor path = .error cause) : Outcome s path fs (.error cause, fs)
  | failed {cause : FileError} {after : Files} : Outcome s path fs (.error (.file path cause), after)
  | written {text : String} {made after : Files} (ht : s.textFor path = .ok text)
    (hw : made.write path text.toUTF8 = .ok after) : Outcome s path fs (.ok (), after)

theorem store_outcome (s : Settings) (path : String) (fs : Files) : s.Outcome path fs (s.store path fs) := by
  unfold store
  split
  · rename_i cause hrefused
    exact .refused hrefused
  · rename_i text htext
    split
    · exact .failed
    · split
      · exact .failed
      · rename_i after hwrite
        exact .written htext hwrite

/-- Settings that are refused, for their values, for the name of their file or because its format cannot hold
them, change nothing on the disk. -/
theorem store_of_refusal {s : Settings} {path : String} {fs : Files} {cause : SettingsError}
    (h : (s.store path fs).1 = .error cause) (hc : cause.isOfDisk = false) : (s.store path fs).2 = fs := by
  have ho := s.store_outcome path fs
  generalize s.store path fs = result at h ho
  cases ho with
  | refused => rfl
  | failed =>
    cases h
    cases hc
  | written => cases h

/-- Settings that were saved can be used, and are loaded again. -/
theorem load_store {s : Settings} {path : String} {fs : Files} (h : (s.store path fs).1 = .ok ()) :
    s.problem? = none ∧
      (s.Fits → (∀ format, FileFormat.ofPath path = .ok format → format.ReadsBack s) →
        load (s.store path fs).2.readText path = .ok s) := by
  have ho := s.store_outcome path fs
  generalize s.store path fs = result at h ho
  cases ho with
  | refused | failed => cases h
  | written ht hw =>
    obtain ⟨hp, format, hf, he⟩ := textFor_ok ht
    refine ⟨hp, fun hs hr => ?_⟩
    have hd := FileFormat.decode_of_readsBack hs (hr format hf) he
    simp only [load, hf, Files.readText_write hw, onFile, hd, bind, Except.bind]
    exact check_of_problem?_eq_none hp

theorem problem?_of_load {read : String → Except FileError String} {path : String} {found : Settings}
    (h : load read path = .ok found) : found.problem? = none := by
  unfold load at h
  obtain ⟨format, -, h⟩ := exists_of_bind_ok h
  obtain ⟨text, -, h⟩ := exists_of_bind_ok h
  obtain ⟨given, -, h⟩ := exists_of_bind_ok h
  obtain ⟨rfl, hp⟩ := check_ok h
  exact hp

theorem problem?_default : ({} : Settings).problem? = none := by decide +kernel

theorem problem?_of_loadOrDefault {read : String → Except FileError String} {usual asked : Option String}
    {found : Settings} (h : loadOrDefault read usual asked = .ok found) :
    found.problem? = none := by
  have hdefault (h : (.ok {} : Except SettingsError Settings) = .ok found) : found.problem? = none := by
    cases h
    exact problem?_default
  unfold loadOrDefault at h
  split at h
  · exact problem?_of_load h
  · exact hdefault h
  · split at h
    · split at h
      · exact hdefault h
      · exact problem?_of_load h
    · exact problem?_of_load h

/-- What saving settings to a file does, and what can be loaded from files. -/
structure SafeAt (s : Settings) (path : String) (fs : Files) : Prop where
  /-- Refused settings change nothing on the disk. -/
  refused : ∀ cause, (s.store path fs).1 = .error cause → cause.isOfDisk = false → (s.store path fs).2 = fs
  /-- Saved settings can be used. -/
  saved : (s.store path fs).1 = .ok () → s.problem? = none
  /-- They are loaded again, if sizes are numbers of 64 bits and the tree is read back that was written. -/
  reloaded : (s.store path fs).1 = .ok () → s.Fits →
    (∀ format, FileFormat.ofPath path = .ok format → format.ReadsBack s) →
    load (s.store path fs).2.readText path = .ok s
  /-- Loaded settings can be used. -/
  loaded : ∀ found, load fs.readText path = .ok found → found.problem? = none
  loadedOrDefault : ∀ usual asked found,
    loadOrDefault fs.readText usual asked = .ok found → found.problem? = none

/-- **Settings files are safe**, whatever the settings, the path and the files are. -/
theorem store_safe (s : Settings) (path : String) (fs : Files) : s.SafeAt path fs where
  refused _ := store_of_refusal
  saved h := (load_store h).1
  reloaded h := (load_store h).2
  loaded _ := problem?_of_load
  loadedOrDefault _ _ _ := problem?_of_loadOrDefault

/-- From the directory of a user, settings are saved in a directory below the root that is not there yet, and in the
directory above. From both files they are loaded again. -/
theorem store_safe_below_root :
    let s : Settings :=
      { interpreter := { units := .inch, arcTolerance := 0.5, workOffsets := { g54 := .linear 12.5 0 (-3) } }
        job := { eventHistory := true, eventHistorySize := 64 }
        logging := { level := "debug", json := true } }
    let fs : Files := { working := ["home", "user"] }
    s.Fits ∧ ∀ path ∈ ["/etc/nckit/settings.json", "../settings.json"],
      (s.store path fs).1 = .ok () ∧
        (∀ format, FileFormat.ofPath path = .ok format → format.ReadsBack s) ∧
        load (s.store path fs).2.readText path = .ok s := by
  intro s fs
  have hfits : s.Fits := ⟨by decide, by decide, by decide⟩
  have hexact : Json.isExact s.toValue = true := by decide +kernel
  have hpaths : ∀ path ∈ ["/etc/nckit/settings.json", "../settings.json"],
      FileFormat.ofPath path = .ok .json ∧ (s.store path fs).1.toOption.isSome = true := by
    rw [List.forall_mem_cons, List.forall_mem_singleton]
    exact ⟨⟨rfl, by decide +kernel⟩, rfl, by decide +kernel⟩
  refine ⟨hfits, fun path hpath => ?_⟩
  obtain ⟨hformat, hsome⟩ := hpaths path hpath
  have hstored : (s.store path fs).1 = .ok () := by
    generalize (s.store path fs).1 = answer at hsome
    cases answer with
    | ok => rfl
    | error => cases hsome
  have hreads : ∀ format, FileFormat.ofPath path = .ok format → format.ReadsBack s := by
    intro format hf
    cases hformat.symm.trans hf
    exact FileFormat.readsBack_json hfits hexact
  exact ⟨hstored, hreads, (store_safe s path fs).reloaded hstored hfits hreads⟩

end Settings

end Toolpath
