import PixelScript.Settings

namespace PixelScript.Settings

open Toml

/-- The file that settings are read from: the one that is asked for, else the nearest, if any. -/
def source? (files : Storage) (asked : Option String) : Option String :=
  asked <|> nearest files.contains files.cwdPath

/-- A settings file that settings cannot be had from. -/
inductive Unusable (toml : Parser) (files : Storage) (path : String) : Prop
  | unreadable (h : ∀ text, files.readText path ≠ .ok text)
  | malformed {text : String} (h : files.readText path = .ok text) (hp : parse toml text = none)
  | withoutLog {text : String} {s : Settings} (h : files.readText path = .ok text)
    (hp : parse toml text = some s) (empty : s.path = "")

/-- What a document says on the log. -/
def stated (root : Table Item) : Overrides :=
  match root.get? "log" with
  | some (.table t) | some (.inline t) =>
    ⟨(t.get? "path").bind stringOf, (t.get? "format").bind formatOf, (t.get? "echo").bind booleanOf⟩
  | some (.array items) =>
    ⟨items[0]?.bind stringOf, items[1]?.bind formatOf, items[2]?.bind booleanOf⟩
  | _ => ⟨none, none, none⟩

/-- What the settings file says on the log, if there is such a file. -/
def statedBy (toml : Parser) (files : Storage) (asked : Option String) : Overrides :=
  let document := do toml (← (files.readText (← source? files asked)).toOption)
  document.elim ⟨none, none, none⟩ stated

/-- Of two settings for the same, the later one counts. -/
theorem override_override (s : Settings) (o p : Overrides) :
    (s.override o).override p =
      s.override ⟨p.path.or o.path, p.format.or o.format, p.echo.or o.echo⟩ := by
  simp only [override, Option.getD_or]

/-- A setting is the one stated, if any, else the default. -/
theorem eq_getD_of_field {α : Type} {given : Option Item} {read : Item → Option α} {byDefault a : α}
    (h : field given read byDefault = some a) : a = (given.bind read).getD byDefault := by
  cases given with
  | none => exact (Option.some.inj h).symm
  | some item =>
    have stated : read item = some a := h
    rw [Option.bind_some, stated]
    rfl

theorem eq_of_ofFields {path format echo : Option Item} {s : Settings}
    (h : ofFields path format echo = some s) :
    s = ⟨(path.bind stringOf).getD default.path, (format.bind formatOf).getD default.format,
      (echo.bind booleanOf).getD default.echo⟩ := by
  unfold ofFields at h
  obtain ⟨p, hp, h⟩ := Option.bind_eq_some_iff.mp h
  obtain ⟨f, hf, h⟩ := Option.bind_eq_some_iff.mp h
  obtain ⟨e, he, h⟩ := Option.bind_eq_some_iff.mp h
  cases h
  rw [eq_getD_of_field hp, eq_getD_of_field hf, eq_getD_of_field he]

theorem eq_of_ofTable {root : Table Item} {s : Settings} (h : ofTable root = some s) :
    s = default.override (stated root) := by
  unfold ofTable at h
  split at h
  · split at h
    · next absent =>
      cases h
      rw [stated, absent]
      rfl
    · next item found =>
      unfold ofItem at h
      split at h
      · rw [stated, found]
        exact eq_of_ofFields h
      · rw [stated, found]
        exact eq_of_ofFields h
      · rw [stated, found]
        exact eq_of_ofFields h
      · cases h
        rw [stated, found]
        rfl
      · cases h
  · cases h

variable {toml : Parser} {files : Storage}

theorem readFile_eq_ok_iff {path : String} {s : Settings} :
    readFile toml files path = .ok s ↔
      ∃ text, files.readText path = .ok text ∧ parse toml text = some s ∧ s.path ≠ "" := by
  unfold readFile
  rw [bind_eq_ok_iff]
  constructor
  · rintro ⟨text, read, h⟩
    split at h
    · next parsed given =>
      split at h
      · next sound =>
        cases h
        refine ⟨text, mapError_eq_ok_iff.mp read, given, ?_⟩
        intro empty
        rw [problems, if_pos empty] at sound
        cases sound
      · cases h
    · cases h
  · rintro ⟨text, read, given, named⟩
    refine ⟨text, mapError_eq_ok_iff.mpr read, ?_⟩
    rw [given]
    dsimp only
    rw [problems, if_neg named]

theorem exists_readFile_error_iff {path : String} :
    (∃ e, readFile toml files path = .error e) ↔ Unusable toml files path := by
  constructor
  · rintro ⟨e, failed⟩
    cases hr : files.readText path with
    | error cause => exact .unreadable (by simp [hr])
    | ok text =>
      cases hp : parse toml text with
      | none => exact .malformed hr hp
      | some s =>
        apply Unusable.withoutLog hr hp
        apply Classical.byContradiction
        intro named
        rw [readFile_eq_ok_iff.mpr ⟨text, hr, hp, named⟩] at failed
        cases failed
  · intro unusable
    cases h : readFile toml files path with
    | error e => exact ⟨e, rfl⟩
    | ok s =>
      obtain ⟨text, read, given, named⟩ := readFile_eq_ok_iff.mp h
      cases unusable with
      | unreadable unread => exact absurd read (unread text)
      | malformed read' malformed =>
        obtain rfl := Except.ok.inj (read.symm.trans read')
        exact nomatch given.symm.trans malformed
      | withoutLog read' given' empty =>
        obtain rfl := Except.ok.inj (read.symm.trans read')
        obtain rfl := Option.some.inj (given.symm.trans given')
        exact absurd empty named

section Load

variable {asked : Option String}

theorem load_of_source {path : String} (h : source? files asked = some path) :
    load toml files asked = readFile toml files path := by
  unfold source? at h
  rw [load, h]

theorem statedBy_of_source {path : String} (h : source? files asked = some path) :
    statedBy toml files asked =
      ((files.readText path).toOption.bind toml).elim ⟨none, none, none⟩ stated := by
  rw [statedBy, h]
  rfl

theorem load_of_no_source (h : source? files asked = none) :
    load toml files asked = .ok default := by
  unfold source? at h
  rw [load, h]

/-- From the root directory, its own file is the only one to look for. -/
theorem source?_at_root (top : files.cwd = []) :
    source? files none = if files.contains "/bitmap.toml" then some "/bitmap.toml" else none := by
  have start : files.cwdPath = "/" := by
    rw [Storage.cwdPath, top]
    rfl
  have here : Path.join "/" fileName = "/bitmap.toml" := rfl
  change nearest files.contains files.cwdPath = _
  rw [start, nearest, here]
  rfl

theorem load_at_root (top : files.cwd = []) (absent : files.contains "/bitmap.toml" = false) :
    load toml files none = .ok default := by
  apply load_of_no_source
  rw [source?_at_root top, absent, if_neg Bool.false_ne_true]

/-- Loading fails by the one file that it would read. Without one there are the defaults. -/
theorem exists_load_error_iff :
    (∃ e, load toml files asked = .error e) ↔
      ∃ path, source? files asked = some path ∧ Unusable toml files path := by
  cases hs : source? files asked with
  | none =>
    rw [load_of_no_source hs]
    exact ⟨nofun, nofun⟩
  | some path =>
    rw [load_of_source hs, exists_readFile_error_iff]
    constructor
    · intro unusable
      exact ⟨path, rfl, unusable⟩
    · rintro ⟨_, same, unusable⟩
      cases same
      exact unusable

/-- Each setting that is loaded is the one stated, if any, else the default. -/
theorem eq_of_load {s : Settings} (h : load toml files asked = .ok s) :
    s = default.override (statedBy toml files asked) := by
  cases hs : source? files asked with
  | none =>
    rw [load_of_no_source hs] at h
    cases h
    rw [statedBy, hs]
    rfl
  | some path =>
    rw [load_of_source hs] at h
    obtain ⟨text, read, given, _⟩ := readFile_eq_ok_iff.mp h
    obtain ⟨root, parsed, ofRoot⟩ := Option.bind_eq_some_iff.mp given
    have document : (files.readText path).toOption.bind toml = some root := by
      rw [read]
      exact parsed
    rw [statedBy_of_source hs, document]
    exact eq_of_ofTable ofRoot

end Load

end PixelScript.Settings
