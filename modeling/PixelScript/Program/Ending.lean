import PixelScript.Program
import PixelScript.Script.Unreadable
import PixelScript.Settings.Stated

namespace PixelScript

/-- A log that has just been opened and is a file is empty. -/
theorem LogFile.holds_of_create {files : Storage} {path : String} {format : EntryFormat}
    {echo : Bool} {log : LogFile} (h : create files path format echo = .ok log)
    {content : ByteArray} (held : log.Holds content) : log.Holds .empty := by
  have opened := (create_eq_ok_iff.mp h).1
  unfold Holds at held ⊢
  obtain emptied | sink | full := Storage.node?_of_create opened
  · exact emptied
  · rw [sink] at held
    cases held
  · rw [full] at held
    cases held

namespace Program

/-- Of three ways to end, each rules out the others. -/
theorem exit_iff_of_ways {exit a b c : Exit} {first second : Prop} (ab : a ≠ b) (ac : a ≠ c)
    (bc : b ≠ c) (ways : first ∧ exit = a ∨ ¬first ∧ second ∧ exit = b ∨
      ¬first ∧ ¬second ∧ exit = c) :
    (exit = a ↔ first) ∧ (exit = b ↔ ¬first ∧ second) ∧ (exit = c ↔ ¬first ∧ ¬second) := by
  obtain ⟨h, rfl⟩ | ⟨h, k, rfl⟩ | ⟨h, k, rfl⟩ := ways
  · simp [h, ab, ac]
  · simp [h, k, ab.symm, bc]
  · simp [h, k, ac.symm, bc.symm]

/-- A log opened at the place of a script leaves nothing of the script to read. -/
theorem readText_of_create {files : Storage} {input path : String} {format : EntryFormat}
    {echo : Bool} {log : LogFile} (hl : LogFile.create files path format echo = .ok log)
    {node : Node} (found : files.find input = .ok (log.target, node)) :
    log.files.readText input = .ok "" :=
  Storage.readText_of_create (LogFile.create_eq_ok_iff.mp hl).1 found

variable {toml : Toml.Parser} {files : Storage} {output : Output} {input : String}
  {overrides : Overrides} {asked : Option String}

theorem run_of_load_error {e : SettingsError} (h : Settings.load toml files asked = .error e) :
    run toml files output input overrides asked = failed 2 e.message output files := by
  unfold run
  rw [h]

/-- What it takes for a run with these settings to succeed: the log can be opened, the script can be
read after that, and the output takes all that the script prints. -/
def Completes (files : Storage) (output : Output) (input : String) (s : Settings) : Prop :=
  ∃ log text ls, LogFile.create files s.path s.format s.echo = .ok log ∧
    log.files.readText input = .ok text ∧ Script.lines text.toUTF8 = .ok ls ∧
    output.Accepts (Command.texts none (Line.commands ls))

theorem completes_iff_of_create {s : Settings} {log : LogFile}
    (opened : LogFile.create files s.path s.format s.echo = .ok log) :
    Completes files output input s ↔ ∃ ls, Script.open? log.files input = .ok ls ∧
      output.Accepts (Command.texts none (Line.commands ls)) := by
  constructor
  · rintro ⟨_, text, ls, created, read, cut, taken⟩
    rw [opened] at created
    cases created
    have loaded := Script.load_eq_ok_iff.mpr ⟨text, read, cut⟩
    exact ⟨ls, Script.open_of_load loaded, taken⟩
  · rintro ⟨ls, loaded, taken⟩
    obtain ⟨text, read, cut⟩ := Script.load_eq_ok_iff.mp (Script.load_of_open loaded)
    exact ⟨log, text, ls, opened, read, cut, taken⟩

section Loaded

variable {s : Settings} (loaded : Settings.load toml files asked = .ok s)

include loaded

theorem run_of_create_error {e : IoError}
    (h : LogFile.create files (s.override overrides).path (s.override overrides).format
      (s.override overrides).echo = .error e) :
    run toml files output input overrides asked =
      failed 1 s!"Cannot open log file '{(s.override overrides).path}': {e.message}" output
        files := by
  unfold run
  simp only [loaded, h]

section Opened

variable {log : LogFile}
  (opened : LogFile.create files (s.override overrides).path (s.override overrides).format
    (s.override overrides).echo = .ok log)

include opened

/-- A run that has its log ends as the script does, and leaves what the script leaves. -/
theorem run_of_create (output : Output) (input : String) :
    let done := Script.runFile log.files input ⟨log, output, []⟩
    let left := run toml files output input overrides asked
    left.output = done.1.output ∧ left.files = done.1.log.files ∧
      (left.exit = .code 0 ∧ (∃ tally, done.2 = .ok tally) ∨
        left.exit = .code 1 ∧ ¬∃ tally, done.2 = .ok tally) := by
  intro done left
  unfold left run
  simp only [loaded, opened]
  cases hd : Script.runFile log.files input ⟨log, output, []⟩ with
  | mk ch result =>
    have ended : done = (ch, result) := hd
    rw [ended]
    cases result with
    | ok tally => exact ⟨rfl, rfl, .inl ⟨rfl, tally, rfl⟩⟩
    | error e => exact ⟨rfl, rfl, .inr ⟨rfl, nofun⟩⟩

/-- A run does what the script says as it stands once the log is open. -/
theorem run_of_open (output : Output) {ls : List Line}
    (h : Script.open? log.files input = .ok ls) :
    let p := Interpreter.start.run ⟨log, output, []⟩ ls
    let left := run toml files output input overrides asked
    left.output = p.channels.output ∧ left.files = p.channels.log.files ∧
      (left.exit = .code 0 ↔ p.failure = none) := by
  intro p left
  obtain ⟨shown, written, ended⟩ := run_of_create loaded opened output input
  rw [Script.runFile_of_open h] at shown written ended
  have returns : (∃ tally, p.result = .ok tally) ↔ p.failure = none := by
    simp [Progress.result_eq_ok_iff]
  rw [returns] at ended
  refine ⟨shown, written, ?_⟩
  obtain ⟨zero, complete⟩ | ⟨one, stopped⟩ := ended
  · exact iff_of_true zero complete
  · refine iff_of_false ?_ stopped
    rw [one]
    exact nofun

/-- A run writes its log and no other file. -/
theorem run_frame :
    files.SameBut (run toml files output input overrides asked).files log.target := by
  obtain ⟨created, _⟩ := LogFile.create_eq_ok_iff.mp opened
  obtain ⟨_, left, _⟩ := run_of_create loaded opened output input
  rw [left, Script.runFile_log]
  exact (Storage.sameBut_of_create created).1.trans (log.addAll_frame _)

/-- What a log in a file held before is gone; it holds what the run has to log. -/
theorem run_logged {before : ByteArray} (held : log.Holds before) :
    (run toml files output input overrides asked).files.node? log.target =
      some (.file (log.format.lines
        (Script.entries log.files input ⟨log, output, []⟩)).toUTF8) := by
  obtain ⟨_, left, _⟩ := run_of_create loaded opened output input
  obtain ⟨written, added, _, content⟩ := (LogFile.holds_of_create opened held).addAll
    (Script.entries log.files input ⟨log, output, []⟩)
  rw [left, Script.runFile_log, added, content, ByteArray.empty_append]

end Opened

/-- With its settings loaded, a run ends in one of two ways. -/
theorem run_exit_of_load (output : Output) (input : String) (overrides : Overrides) :
    let left := run toml files output input overrides asked
    left.exit = .code 0 ∧ Completes files output input (s.override overrides) ∨
      left.exit = .code 1 ∧ ¬Completes files output input (s.override overrides) := by
  intro left
  cases hl : LogFile.create files (s.override overrides).path (s.override overrides).format
      (s.override overrides).echo with
  | error e =>
    have ended : left = _ := run_of_create_error loaded hl
    rw [ended]
    refine .inr ⟨rfl, ?_⟩
    rintro ⟨log, _, _, opened, _⟩
    rw [hl] at opened
    cases opened
  | ok log =>
    obtain ⟨_, _, ended⟩ := run_of_create loaded hl output input
    rw [Script.runFile_eq_ok_iff, ← completes_iff_of_create hl] at ended
    exact ended

end Loaded

end Program

end PixelScript
