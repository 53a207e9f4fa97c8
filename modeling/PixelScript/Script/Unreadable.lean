import PixelScript.Interpreter.Accounts
import PixelScript.Script.File
import PixelScript.Script.Reading

namespace PixelScript.Script

/-- A script that cannot be read in full, and the error that says so. One line that is not UTF-8 is
enough, wherever it stands. -/
inductive Unreadable (files : Storage) : String → RunError → Prop
  | unnamed : Unreadable files "" (.missing "")
  | missing {path : String} (h : ∀ found, files.find path ≠ .ok found) :
    Unreadable files path (.missing path)
  | directory {path : String} {l : Location} (h : files.find path = .ok (l, .directory)) :
    Unreadable files path (.unreadable path .isADirectory)
  | garbled {path : String} {l : Location} {content : ByteArray} {segment : List UInt8}
    (h : files.find path = .ok (l, .file content)) (hs : segment ∈ segments content.data.toList)
    (invalid : ¬segment.toByteArray.IsValidUTF8) :
    Unreadable files path (.unreadable path .notUtf8)

/-- Whether a script can be read is up to what its path finds. -/
theorem Unreadable.congr {files others : Storage} {path : String} {e : RunError}
    (h : Unreadable files path e)
    (same : ∀ found, others.find path = .ok found ↔ files.find path = .ok found) :
    Unreadable others path e := by
  cases h with
  | unnamed => exact .unnamed
  | missing h => exact .missing fun found hf => h found ((same found).mp hf)
  | directory h => exact .directory ((same _).mpr h)
  | garbled h hs invalid => exact .garbled ((same _).mpr h) hs invalid

/-- Of all that stands in the message, only the path can break the line. -/
theorem Unreadable.count_message {files : Storage} {path : String} {e : RunError}
    (h : Unreadable files path e) : e.message.toList.count '\n' = path.toList.count '\n' := by
  have missing (path : String) :
      (RunError.missing path).message.toList.count '\n' = path.toList.count '\n' := by
    have text : (RunError.missing path).message = "Commands file not present at " ++ path := rfl
    have framed : "Commands file not present at ".toList.count '\n' = 0 := by decide +kernel
    rw [text, String.toList_append, List.count_append, framed, Nat.zero_add]
  have unreadable (cause : IoError) (h : cause.message.toList.count '\n' = 0) :
      (RunError.unreadable path cause).message.toList.count '\n' = path.toList.count '\n' := by
    have text : (RunError.unreadable path cause).message =
      "Commands file could not be read at " ++ path ++ ": " ++ cause.message := rfl
    have framed : "Commands file could not be read at ".toList.count '\n' = 0 := by decide +kernel
    have colon : ": ".toList.count '\n' = 0 := by decide +kernel
    simp only [text, String.toList_append, List.count_append, framed, colon, h, Nat.zero_add,
      Nat.add_zero]
  cases h with
  | unnamed => exact missing ""
  | missing => exact missing path
  | directory => exact unreadable .isADirectory (by decide +kernel)
  | garbled => exact unreadable .notUtf8 (by decide +kernel)

/-- Lines fail to be decoded if one of them does. -/
theorem linesFrom_eq_error_iff {number : Nat} {ss : List (List UInt8)} {e : IoError} :
    linesFrom number ss = .error e ↔
      e = .notUtf8 ∧ ∃ s ∈ ss, ¬s.toByteArray.IsValidUTF8 := by
  induction ss generalizing number with
  | nil => simp [linesFrom]
  | cons s ss ih =>
    rw [linesFrom]
    cases h : String.fromUTF8? s.toByteArray with
    | none =>
      have invalid : ¬s.toByteArray.IsValidUTF8 := by
        rw [Text.isValidUTF8_iff]
        rintro ⟨text, code⟩
        rw [Text.fromUTF8?_eq_some_iff.mpr code] at h
        cases h
      constructor
      · intro failed
        cases failed
        exact ⟨rfl, s, List.mem_cons_self, invalid⟩
      · rintro ⟨rfl, _⟩
        rfl
    | some text =>
      have valid : s.toByteArray.IsValidUTF8 :=
        Text.isValidUTF8_iff.mpr ⟨text, Text.fromUTF8?_eq_some_iff.mp h⟩
      have rest : (linesFrom (number + 1) ss).map (Line.ofText number text :: ·) = .error e ↔
          linesFrom (number + 1) ss = .error e := by
        cases linesFrom (number + 1) ss with
        | error cause => exact Iff.rfl
        | ok ls =>
          constructor
          all_goals
            intro failed
            cases failed
      simp only [rest, ih, List.mem_cons, exists_eq_or_imp, valid, not_true_eq_false, false_or]

section Load

variable {files : Storage} {path : String}

theorem load_eq_ok_iff {ls : List Line} :
    load files path = .ok ls ↔
      ∃ text, files.readText path = .ok text ∧ lines text.toUTF8 = .ok ls := by
  unfold load
  rw [bind_eq_ok_iff]
  constructor
  · rintro ⟨content, read, cut⟩
    obtain ⟨text, code⟩ := exists_text_of_lines cut
    rw [code] at read cut
    exact ⟨text, Storage.readText_eq_ok_iff.mpr read, cut⟩
  · rintro ⟨text, read, cut⟩
    exact ⟨_, Storage.readText_eq_ok_iff.mp read, cut⟩

theorem load_of_find_error {cause : IoError} (h : files.find path = .error cause) :
    load files path = .error cause := by
  rw [load, Storage.read, h]
  rfl

theorem load_of_directory {l : Location} (h : files.find path = .ok (l, .directory)) :
    load files path = .error .isADirectory := by
  rw [load, Storage.read, h]
  rfl

theorem load_of_file {l : Location} {content : ByteArray}
    (h : files.find path = .ok (l, .file content)) : load files path = lines content := by
  rw [load, Storage.read, h]
  rfl

/-- The error for a script that is missing is not the one that looking for it ends with. -/
theorem Unreadable.exists_load_error {e : RunError} (h : Unreadable files path e) :
    ∃ cause, load files path = .error cause ∧
      (e = .missing path ∧ files.contains path = false ∨
        e = .unreadable path cause ∧ files.contains path = true) := by
  cases h with
  | unnamed =>
    have refused : files.find "" = .error .notFound := rfl
    refine ⟨_, load_of_find_error refused, .inl ⟨rfl, ?_⟩⟩
    rw [Storage.contains, refused]
    rfl
  | missing h =>
    cases hf : files.find path with
    | ok found => exact absurd hf (h found)
    | error cause =>
      exact ⟨cause, load_of_find_error hf, .inl ⟨rfl, Storage.contains_eq_false_iff.mpr h⟩⟩
  | directory h => exact ⟨_, load_of_directory h, .inr ⟨rfl, Storage.contains_of_find h⟩⟩
  | garbled h hs invalid =>
    have failed : lines _ = .error .notUtf8 := linesFrom_eq_error_iff.mpr ⟨rfl, _, hs, invalid⟩
    exact ⟨_, (load_of_file h).trans failed, .inr ⟨rfl, Storage.contains_of_find h⟩⟩

/-- These are all the ways in which a script is refused. -/
theorem open?_eq_error_iff {e : RunError} :
    open? files path = .error e ↔ Unreadable files path e := by
  constructor
  · intro h
    cases hf : files.find path with
    | error cause =>
      have absent : ∀ found, files.find path ≠ .ok found := by simp [hf]
      rw [open?, Storage.contains_eq_false_iff.mpr absent] at h
      cases h
      exact .missing absent
    | ok found =>
      obtain ⟨l, node⟩ := found
      rw [open?, if_pos (Storage.contains_of_find hf)] at h
      obtain ⟨cause, failed, rfl⟩ := mapError_eq_error_iff.mp h
      cases node with
      | directory =>
        rw [load_of_directory hf] at failed
        cases failed
        exact .directory hf
      | file content =>
        rw [load_of_file hf] at failed
        obtain ⟨rfl, segment, hs, invalid⟩ := linesFrom_eq_error_iff.mp failed
        exact .garbled hf hs invalid
      | sink =>
        rw [load, Storage.read, hf] at failed
        cases failed
      | full =>
        rw [load, Storage.read, hf] at failed
        cases failed
  · intro h
    obtain ⟨cause, failed, ⟨rfl, absent⟩ | ⟨rfl, found⟩⟩ := h.exists_load_error
    · rw [open?, absent]
      rfl
    · rw [open?, if_pos found, failed]
      rfl

end Load

variable {σ : Type} [Log σ] {files : Storage} {path : String}

/-- What a run of a file has to log: the error that keeps it from starting, or the reports of the
lines that it takes up. -/
def entries (files : Storage) (path : String) (ch : Channels σ) : List Entry :=
  match open? files path with
  | .error e => [.fatal e.message]
  | .ok lines => (Line.reports (Interpreter.start.handed ch lines)).map .rejected

theorem runFile_of_open {ls : List Line} (h : open? files path = .ok ls) (ch : Channels σ) :
    runFile files path ch =
      ((Interpreter.start.run ch ls).channels, (Interpreter.start.run ch ls).result) := by
  rw [runFile, h]

theorem runFile_of_unreadable {e : RunError} (h : Unreadable files path e) (ch : Channels σ) :
    let receipt := Log.add ch.log (.fatal e.message)
    runFile files path ch =
      ({ ch with log := receipt.log, notices := ch.notices ++ receipt.echoed },
        .error (receipt.refusal.elim e .io)) := by
  rw [runFile, open?_eq_error_iff.mpr h]

theorem runFile_log (files : Storage) (path : String) (ch : Channels σ) :
    (runFile files path ch).1.log = Log.addAll ch.log (entries files path ch) := by
  unfold entries
  cases h : open? files path with
  | error e =>
    rw [runFile, h]
    rfl
  | ok ls =>
    rw [runFile_of_open h, (Interpreter.start.run_channels ch ls).1, Interpreter.feed_log]

/-- A file is run to its end if it can be read and the output takes what its commands print. Its
rejected lines do not matter, nor does what becomes of their reports. -/
theorem runFile_eq_ok_iff (ch : Channels σ) :
    (∃ tally, (runFile files path ch).2 = .ok tally) ↔
      ∃ ls, open? files path = .ok ls ∧
        ch.output.Accepts (Command.texts none (Line.commands ls)) := by
  cases h : open? files path with
  | error e =>
    rw [runFile, h]
    exact ⟨nofun, nofun⟩
  | ok ls =>
    rw [runFile_of_open h]
    have ended := Interpreter.start.run_failure_eq_none_iff ch ls
    constructor
    · rintro ⟨tally, returned⟩
      exact ⟨ls, rfl, ended.mp (Progress.result_eq_ok_iff.mp returned).1⟩
    · rintro ⟨_, opened, taken⟩
      cases opened
      exact ⟨_, Progress.result_eq_ok_iff.mpr ⟨ended.mpr taken, rfl⟩⟩

end PixelScript.Script
