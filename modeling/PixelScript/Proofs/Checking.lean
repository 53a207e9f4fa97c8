import PixelScript.Line.Rejected
import PixelScript.Output
import PixelScript.Program
import PixelScript.Program.Ending

namespace PixelScript

/-- A check collects what a run of the same script hands to its log, in the same order, and lists
what the run leaves in a log file of text apart from the script. -/
theorem check_agrees_with_run {toml : Toml.Parser} {files : Storage} {input text : String}
    (h : files.readText input = .ok text) :
    ∃ a : Audit, Audit.start.addFile files input = (a, none) ∧
      (∀ (σ : Type) [Log σ] (ch : Channels σ), ch.output.Endless →
        (Script.runFile files input ch).1.log =
            Log.addAll ch.log (a.reports.map .rejected) ∧
          ∃ tally, (Script.runFile files input ch).2 = .ok tally ∧
            tally.rejected = a.errorCount) ∧
      ∀ (asked : Option String) (overrides : Overrides) (s : Settings) (log : LogFile)
        (output : Output), output.Endless → Settings.load toml files asked = .ok s →
        LogFile.create files (s.override overrides).path (s.override overrides).format
          (s.override overrides).echo = .ok log →
        log.Holds .empty → (∀ node, files.find input ≠ .ok (log.target, node)) →
        ∃ content : String,
          (Program.run toml files output input overrides asked).exit = .code 0 ∧
          (Program.run toml files output input overrides asked).files.node? log.target =
            some (.file content.toUTF8) ∧
          (a.hasErrors = false ↔ content.toUTF8 = .empty) ∧
          (log.format = .text → a.hasErrors = true → ∀ screen errors : Output, screen.Endless →
            (Program.check files screen errors input false).output =
              screen.add (content ++ "\n" ++ Program.countLine a.errorCount)) := by
  obtain ⟨ls, loaded⟩ := Script.load_of_readText h
  refine ⟨⟨Line.reports ls⟩, Audit.start.addFile_of_load loaded, ?_, ?_⟩
  · intro σ _ ch ho
    exact Script.runFile_endless loaded ho
  intro asked overrides s log output ho hs hl empty apart
  have reloaded : Script.load log.files input = .ok ls := Program.load_of_create hl apart loaded
  let ch : Channels LogFile := ⟨log, output, []⟩
  have ready : ch.output.Endless := ho
  obtain ⟨logged, tally, ended, _⟩ := Script.runFile_endless reloaded ready
  obtain ⟨written, added, _, held⟩ := empty.addAll ((Line.reports ls).map .rejected)
  rw [Program.run_of_ok hs hl ended]
  refine ⟨log.format.lines ((Line.reports ls).map .rejected), rfl, ?_, ?_, ?_⟩
  · rw [logged, added, held, ByteArray.empty_append]
  · rw [EntryFormat.lines_toUTF8_eq_empty_iff, List.map_eq_nil_iff]
    simp [Audit.hasErrors]
  · intro format found screen errors hscreen
    have some_report : Line.reports ls ≠ [] := by
      simpa [Audit.hasErrors] using found
    rw [Program.check_endless loaded hscreen errors, format]
    simp only [Bool.false_eq_true, if_false, Program.listing_eq some_report, Audit.errorCount]

/-- One line is short of words and one is blank. -/
def twoFaults : String := "I 2 2\nL 9\n\nS"

def faultyFiles : Storage :=
  ⟨[], [(["in.txt"], .file twoFaults.toUTF8), (["old.log"], .file "x".toUTF8)]⟩

theorem check_agrees_with_run_two_faults :
    let overrides : Overrides := ⟨some "old.log", none, none⟩
    faultyFiles.readText "in.txt" = .ok twoFaults ∧
      ∃ content : String,
        (Program.run Toml.parse faultyFiles .unlimited "in.txt" overrides none).exit = .code 0 ∧
        (Program.run Toml.parse faultyFiles .unlimited "in.txt" overrides none).files.node?
          ["old.log"] = some (.file content.toUTF8) ∧
        (Program.check faultyFiles .unlimited .refusing "in.txt" false).output =
          Output.unlimited.add (content ++ "\n" ++ "Found 2 errors.\n") := by
  intro overrides
  have read : faultyFiles.readText "in.txt" = .ok twoFaults := Storage.readText_eq_ok_iff.mpr rfl
  have nowhere : Settings.nearest faultyFiles.contains faultyFiles.cwdPath = none := by
    rw [Settings.nearest, if_neg (by decide)]
    split
    · rfl
    · next above h =>
      have top : Path.parent? faultyFiles.cwdPath = none := by rfl
      rw [top] at h
      cases h
  have settings : Settings.load Toml.parse faultyFiles none = .ok .default := by
    rw [Settings.load, nowhere]
    rfl
  have apart : ∀ node, faultyFiles.find "in.txt" ≠ .ok (["old.log"], node) := by
    intro node h
    have found : faultyFiles.find "in.txt" = .ok (["in.txt"], .file twoFaults.toUTF8) := by rfl
    rw [found] at h
    simp at h
  obtain ⟨a, collected, _, runs⟩ := check_agrees_with_run read
  have count : (Audit.start.addFile faultyFiles "in.txt").1.errorCount = 2 := by decide +kernel
  have errors : (Audit.start.addFile faultyFiles "in.txt").1.hasErrors = true := by decide +kernel
  rw [collected] at count errors
  have opened : LogFile.create faultyFiles "old.log" .text false =
      .ok ⟨faultyFiles.put ["old.log"] (.file .empty), ["old.log"], .text, false⟩ := by rfl
  obtain ⟨content, exit, logged, _, listed⟩ :=
    runs none overrides .default _ .unlimited ⟨rfl, rfl⟩ settings opened rfl apart
  have listing := listed rfl errors .unlimited .refusing ⟨rfl, rfl⟩
  rw [count] at listing
  exact ⟨read, content, exit, logged, listing⟩

namespace Program

section Check

variable {files : Storage} {input : String}

/-- Nothing but the complaint is printed on a script that cannot be read. -/
theorem check_of_unreadable {e : RunError} (h : Script.Unreadable files input e)
    (output errors : Output) (json : Bool) :
    check files output errors input json = complain (complaint input e) output errors files := by
  obtain ⟨cause, unread, ⟨rfl, absent⟩ | ⟨rfl, present⟩⟩ := h.exists_load_error
  · rw [check, absent, if_neg Bool.false_ne_true]
  · have audited : Audit.start.addFile files input = (Audit.start, some cause) := by
      rw [Audit.addFile, unread]
    rw [check, if_pos present, audited]

/-- A complaint is made in full, or the program panics. -/
theorem complain_exit (message : String) (output errors : Output) (files : Storage) :
    let taken := errors.Admits s!"Error: {message}\n".toUTF8.size
    let done := complain message output errors files
    done.files = files ∧ (taken ∧ done.exit = .code 1 ∨ ¬taken ∧ done.exit = .panicked) := by
  rw [complain, ← Output.write_failure_eq_none_iff]
  dsimp only
  cases errors.write s!"Error: {message}\n" with
  | mk left failure =>
    cases failure with
    | none => exact ⟨rfl, .inl ⟨rfl, rfl⟩⟩
    | some e => exact ⟨rfl, .inr ⟨Option.some_ne_none e, rfl⟩⟩

/-- What a check prints on lines. -/
def listed (json : Bool) (ls : List Line) : String :=
  if json then jsonListing (Line.reports ls) else listing (Line.reports ls)

/-- There is something to print on lines without faults too. -/
theorem listed_ne_empty (json : Bool) (ls : List Line) : listed json ls ≠ "" := by
  intro nothing
  cases json with
  | true =>
    have ending : "\n\x7d\n" = "" := (String.append_eq_empty_iff.mp nothing).2
    simp at ending
  | false =>
    change listing (Line.reports ls) = "" at nothing
    cases reports : Line.reports ls with
    | nil => simp [reports, listing] at nothing
    | cons r rs => simp [reports, listing] at nothing

/-- A listing is printed in full, or the check panics. -/
theorem check_of_load {ls : List Line} (h : Script.load files input = .ok ls)
    (output errors : Output) (json : Bool) :
    let fits := output.Admits (listed json ls).toUTF8.size
    let done := check files output errors input json
    done.output = (output.write (listed json ls)).1 ∧ done.files = files ∧
      (fits ∧ Line.reports ls = [] ∧ done.exit = .code 0 ∨
        fits ∧ Line.reports ls ≠ [] ∧ done.exit = .code 1 ∨ ¬fits ∧ done.exit = .panicked) := by
  have audited : Audit.start.addFile files input = (⟨Line.reports ls⟩, none) :=
    Audit.start.addFile_of_load h
  rw [check, if_pos (Script.contains_of_load h), audited, ← Output.write_failure_eq_none_iff]
  dsimp only
  rw [← listed]
  cases output.write (listed json ls) with
  | mk left failure =>
    cases failure with
    | some e => exact ⟨rfl, rfl, .inr (.inr ⟨Option.some_ne_none e, rfl⟩)⟩
    | none =>
      cases Line.reports ls with
      | nil => exact ⟨rfl, rfl, .inl ⟨rfl, rfl, rfl⟩⟩
      | cons r rs => exact ⟨rfl, rfl, .inr (.inl ⟨rfl, List.cons_ne_nil r rs, rfl⟩)⟩

/-- With an output that takes nothing, the check of any script that can be read panics. -/
theorem check_of_full {ls : List Line} (h : Script.load files input = .ok ls) {output : Output}
    (full : output.room = some 0) (errors : Output) (json : Bool) :
    (check files output errors input json).exit = .panicked := by
  have beyond := Output.not_admits_of_full full (listed_ne_empty json ls)
  obtain ⟨_, _, ⟨fits, _⟩ | ⟨fits, _⟩ | ⟨_, ended⟩⟩ := check_of_load h output errors json
  · exact absurd fits beyond
  · exact absurd fits beyond
  · exact ended

end Check

/-- A check panics exactly if a stream refuses what it has to say. Else its code is 1 exactly if the
script cannot be read or has a line that is rejected, and 0 if not. It writes no file. -/
theorem check_exit_iff (files : Storage) (output errors : Output) (input : String) (json : Bool) :
    let done := check files output errors input json
    let refused := (∃ ls, Script.load files input = .ok ls ∧
        ¬output.Admits (listed json ls).toUTF8.size) ∨
      ∃ e, Script.Unreadable files input e ∧
        ¬errors.Admits s!"Error: {complaint input e}\n".toUTF8.size
    let faulty := (∃ e, Script.Unreadable files input e) ∨
      ∃ ls, Script.load files input = .ok ls ∧ ∃ line ∈ ls, ∃ r, line.check = .error r
    done.files = files ∧ (done.exit = .panicked ↔ refused) ∧
      (done.exit = .code 1 ↔ ¬refused ∧ faulty) ∧ (done.exit = .code 0 ↔ ¬refused ∧ ¬faulty) := by
  intro done refused faulty
  cases opened : Script.open? files input with
  | error e =>
    have unreadable_iff (e' : RunError) : Script.Unreadable files input e' ↔ e = e' := by
      rw [← Script.open?_eq_error_iff, opened, Except.error.injEq]
    have unread : ¬∃ ls, Script.load files input = .ok ls := by
      rintro ⟨ls, loaded⟩
      rw [Script.open_of_load loaded] at opened
      cases opened
    have refused_iff : refused ↔ ¬errors.Admits s!"Error: {complaint input e}\n".toUTF8.size := by
      simp only [refused, unreadable_iff, exists_eq_left', or_iff_right_iff_imp]
      rintro ⟨ls, loaded, _⟩
      exact absurd ⟨ls, loaded⟩ unread
    have broken : faulty := .inl ⟨e, (unreadable_iff e).mpr rfl⟩
    have left : done = complain (complaint input e) output errors files :=
      check_of_unreadable ((unreadable_iff e).mpr rfl) output errors json
    rw [refused_iff, left]
    obtain ⟨same, ended⟩ := complain_exit (complaint input e) output errors files
    refine ⟨same, exit_iff_of_ways (by decide) (by decide) (by decide) ?_⟩
    obtain ⟨taken, code⟩ | ⟨beyond, code⟩ := ended
    · exact .inr (.inl ⟨not_not_intro taken, broken, code⟩)
    · exact .inl ⟨beyond, code⟩
  | ok ls =>
    have loaded : Script.load files input = .ok ls := Script.load_of_open opened
    have readable : ¬∃ e, Script.Unreadable files input e := by
      simp [← Script.open?_eq_error_iff, opened]
    have refused_iff : refused ↔ ¬output.Admits (listed json ls).toUTF8.size := by
      simp only [refused, loaded, Except.ok.injEq, exists_eq_left', or_iff_left_iff_imp]
      rintro ⟨e, unreadable, _⟩
      exact absurd ⟨e, unreadable⟩ readable
    have faulty_iff : faulty ↔ Line.reports ls ≠ [] := by
      simp [faulty, readable, loaded, Line.reports_eq_nil_iff]
    rw [refused_iff, faulty_iff]
    obtain ⟨_, same, ended⟩ := check_of_load loaded output errors json
    refine ⟨same, exit_iff_of_ways (by decide) (by decide) (by decide) ?_⟩
    obtain ⟨fits, clean, code⟩ | ⟨fits, found, code⟩ | ⟨beyond, code⟩ := ended
    · exact .inr (.inr ⟨not_not_intro fits, not_not_intro clean, code⟩)
    · exact .inr (.inl ⟨not_not_intro fits, found, code⟩)
    · exact .inl ⟨beyond, code⟩

/-- A run of the same script on the same output ends with code 1. -/
theorem check_panics :
    let files : Storage := ⟨[], [(["c.txt"], .file "S\n".toUTF8)]⟩
    let ls : List Line := [⟨1, "S", []⟩]
    Script.load files "c.txt" = .ok ls ∧ Line.reports ls = [] ∧
    (main .own files .refusing ["check", "c.txt"]).exit = .panicked ∧
    (main .own files .refusing ["check", "c.txt", "--json"]).exit = .panicked ∧
    (main .own files .refusing ["run", "c.txt"]).exit = .code 1 := by
  intro files ls
  have lines : Script.lines "S\n".toUTF8 = .ok ls :=
    (Script.lines_toUTF8 _).trans (congrArg _ (by decide +kernel))
  have loaded : Script.load files "c.txt" = .ok ls :=
    Script.load_eq_ok_iff.mpr ⟨_, Storage.readText_eq_ok_iff.mpr rfl, lines⟩
  have settings : Settings.load Toml.parse files none = .ok .default :=
    Settings.load_at_root rfl rfl
  let log : LogFile :=
    ⟨files.put ["error_log.txt"] (.file .empty), ["error_log.txt"], .text, false⟩
  have opened : LogFile.create files "error_log.txt" .text false = .ok log := rfl
  have read : Script.open? log.files "c.txt" = .ok ls :=
    Script.open_of_load (Script.load_eq_ok_iff.mpr ⟨_, Storage.readText_eq_ok_iff.mpr rfl, lines⟩)
  have stops :
      ¬Completes files .refusing "c.txt" (Settings.default.override ⟨none, none, none⟩) := by
    rw [completes_iff_of_create opened, read]
    rintro ⟨_, same, fits, _⟩
    cases same
    exact Output.not_admits_of_full rfl (by decide +kernel) fits
  obtain ⟨_, completes⟩ | ⟨failing, _⟩ :=
    run_exit_of_load settings .refusing "c.txt" ⟨none, none, none⟩
  · exact absurd completes stops
  · exact ⟨loaded, by decide +kernel, check_of_full loaded rfl .unlimited false,
      check_of_full loaded rfl .unlimited true, failing⟩

end Program

end PixelScript
