import PixelScript.Log
import PixelScript.Storage.Frame

namespace PixelScript

/-- How an entry is written on its line. -/
inductive EntryFormat where
  | text
  | json
  deriving DecidableEq

namespace EntryFormat

def name : EntryFormat → String
  | text => "text"
  | json => "json"

def ofName? (name : String) : Option EntryFormat :=
  [text, json].find? (·.name = name)

def line (format : EntryFormat) (e : Entry) : String :=
  match format with
  | text => e.text ++ "\n"
  | json => e.json ++ "\n"

def lines (format : EntryFormat) (entries : List Entry) : String :=
  String.join (entries.map format.line)

theorem lines_cons (format : EntryFormat) (e : Entry) (es : List Entry) :
    format.lines (e :: es) = format.line e ++ format.lines es := by
  simp [lines, String.join_cons]

theorem line_ne_empty (format : EntryFormat) (e : Entry) : format.line e ≠ "" := by
  cases format with
  | text => simp [line]
  | json => simp [line]

theorem lines_eq_empty_iff (format : EntryFormat) (es : List Entry) :
    format.lines es = "" ↔ es = [] := by
  cases es with
  | nil => simp [lines]
  | cons e es => simp [lines_cons, line_ne_empty]

/-- Only a log without entries has no bytes. -/
theorem lines_toUTF8_eq_empty_iff (format : EntryFormat) (es : List Entry) :
    (format.lines es).toUTF8 = .empty ↔ es = [] := by
  have bytes : (format.lines es).toUTF8 = .empty ↔ format.lines es = "" := by
    rw [String.toUTF8_eq_toByteArray, ← String.toByteArray_empty, String.toByteArray_inj]
  rw [bytes, lines_eq_empty_iff]

end EntryFormat

/-- A log at a place in a file system. With `echo` each entry is printed too, as text. -/
structure LogFile where
  files : Storage
  target : Location
  format : EntryFormat
  echo : Bool

namespace LogFile

/-- Nothing of an earlier log stays. -/
def create (files : Storage) (path : String) (format : EntryFormat) (echo : Bool) :
    Except IoError LogFile := do
  let (files, target) ← files.create path
  .ok ⟨files, target, format, echo⟩

def add (l : LogFile) (e : Entry) : Receipt LogFile :=
  let echoed := if l.echo then [e.text] else []
  match l.files.append l.target (l.format.line e).toUTF8 with
  | .ok files => ⟨{ l with files }, echoed, none⟩
  | .error cause => ⟨l, echoed, some cause⟩

instance : Log LogFile := ⟨add⟩

theorem create_eq_ok_iff {files : Storage} {path : String} {format : EntryFormat} {echo : Bool}
    {log : LogFile} :
    create files path format echo = .ok log ↔
      files.create path = .ok (log.files, log.target) ∧ log.format = format ∧ log.echo = echo := by
  unfold create
  rw [bind_eq_ok_iff]
  constructor
  · rintro ⟨⟨opened, target⟩, created, h⟩
    cases h
    exact ⟨created, rfl, rfl⟩
  · rintro ⟨created, rfl, rfl⟩
    exact ⟨_, created, rfl⟩

/-- An entry is written at the place of the log, or lost. -/
theorem add_frame (l : LogFile) (e : Entry) :
    ∃ files, (Log.add l e).log = { l with files } ∧ l.files.SameBut files l.target := by
  change ∃ files, (l.add e).log = { l with files } ∧ l.files.SameBut files l.target
  unfold add
  cases h : l.files.append l.target (l.format.line e).toUTF8 with
  | ok files => exact ⟨files, rfl, Storage.sameBut_of_append h⟩
  | error cause => exact ⟨l.files, rfl, .refl _ _⟩

theorem addAll_frame (l : LogFile) (es : List Entry) :
    l.files.SameBut (Log.addAll l es).files l.target := by
  induction es generalizing l with
  | nil => exact .refl _ _
  | cons e es ih =>
    obtain ⟨files, step, frame⟩ := l.add_frame e
    have later := ih (Log.add l e).log
    rw [step] at later
    change l.files.SameBut (Log.addAll (Log.add l e).log es).files l.target
    rw [step]
    exact frame.trans later

/-- The log is a file, and this is what it holds. -/
def Holds (l : LogFile) (content : ByteArray) : Prop :=
  l.files.node? l.target = some (.file content)

theorem Holds.unique {l : LogFile} {a b : ByteArray} (ha : l.Holds a) (hb : l.Holds b) : a = b := by
  have nodes : some (Node.file a) = some (Node.file b) := ha.symm.trans hb
  cases nodes
  rfl

/-- An entry is added at the end, and nothing else is written. -/
theorem Holds.add {l : LogFile} {content : ByteArray} (h : l.Holds content) (e : Entry) :
    (Log.add l e).refusal = none ∧
      ∃ files, (Log.add l e).log = { l with files } ∧ l.files.SameBut files l.target ∧
        Holds { l with files } (content ++ (l.format.line e).toUTF8) := by
  let next := l.files.put l.target (.file (content ++ (l.format.line e).toUTF8))
  have added : Log.add l e = ⟨{ l with files := next }, if l.echo then [e.text] else [], none⟩ := by
    change l.add e = _
    rw [LogFile.add, Storage.append_of_file h]
  have held : Holds { l with files := next } (content ++ (l.format.line e).toUTF8) :=
    Storage.node?_put_self _ (Storage.ne_root_of_file h) _
  rw [added]
  exact ⟨rfl, next, rfl, Storage.sameBut_put _ _ _, held⟩

/-- A log in a file takes every entry, and writes nowhere else. -/
theorem Holds.addAll {l : LogFile} {content : ByteArray} (h : l.Holds content)
    (es : List Entry) :
    ∃ files, Log.addAll l es = { l with files } ∧ l.files.SameBut files l.target ∧
      files.node? l.target = some (.file (content ++ (l.format.lines es).toUTF8)) := by
  induction es generalizing l content with
  | nil =>
    refine ⟨l.files, rfl, .refl _ _, ?_⟩
    simpa [EntryFormat.lines, Holds] using h
  | cons e es ih =>
    obtain ⟨_, next, step, frame, held⟩ := h.add e
    obtain ⟨files, added, later, written⟩ := ih held
    refine ⟨files, ?_, frame.trans later, ?_⟩
    · change Log.addAll (Log.add l e).log es = _
      rw [step, added]
    · rw [written, EntryFormat.lines_cons]
      simp [ByteArray.append_assoc]

end LogFile

end PixelScript
