import PixelScript.Log
import PixelScript.Program.Ending

namespace PixelScript.Program

/-- The code of a run is 2 exactly if settings cannot be had, 0 exactly if it completes with those
that are given, and else 1. A log file then holds what this run has to log, and nothing else. -/
theorem main_exit_of_run {parsers : Parsers} {args : List String} {input : String}
    {overrides : Overrides} {asked : Option String}
    (accepted : parsers.arguments args = .ok (.run input overrides asked))
    (files : Storage) (output : Output) :
    let done := main parsers files output args
    let fails := ∃ path, Settings.source? files asked = some path ∧
      Settings.Unusable parsers.toml files path
    let stated := Settings.statedBy parsers.toml files asked
    let s : Settings := ⟨(overrides.path.or stated.path).getD "error_log.txt",
      (overrides.format.or stated.format).getD .text, (overrides.echo.or stated.echo).getD false⟩
    (done.exit = .code 2 ↔ fails) ∧ (fails → done.output = output ∧ done.files = files) ∧
    (done.exit = .code 0 ↔ ¬fails ∧ Completes files output input s) ∧
    (done.exit = .code 1 ↔ ¬fails ∧ ¬Completes files output input s) ∧
    (∀ e, ¬fails → LogFile.create files s.path s.format s.echo = .error e →
      done.output = output ∧ done.files = files) ∧
    ∀ log, ¬fails → LogFile.create files s.path s.format s.echo = .ok log →
      files.SameBut done.files log.target ∧
      (∀ before, log.Holds before → done.files.node? log.target = some (.file
        (s.format.lines (Script.entries log.files input ⟨log, output, []⟩)).toUTF8)) ∧
      ∀ (σ : Type) [Log σ] (ch : Channels σ) (ls ms : List Line), ch.output = output →
        Script.open? log.files input = .ok ls → Line.commands ms = Line.commands ls →
        ((Interpreter.start.run ch ms).failure = none ↔ done.exit = .code 0) := by
  intro done fails stated s
  have ran : done = run parsers.toml files output input overrides asked := by
    unfold done main
    rw [accepted]
  cases hl : Settings.load parsers.toml files asked with
  | error e =>
    have failing : fails := Settings.exists_load_error_iff.mp ⟨e, hl⟩
    have ended : done = failed 2 e.message output files := ran.trans (run_of_load_error hl)
    rw [ended]
    exact ⟨iff_of_true rfl failing, fun _ => ⟨rfl, rfl⟩, iff_of_false nofun (absurd failing ·.1),
      iff_of_false nofun (absurd failing ·.1), fun _ sound => absurd failing sound,
      fun _ sound => absurd failing sound⟩
  | ok t =>
    have sound : ¬fails := by
      unfold fails
      rw [← Settings.exists_load_error_iff, hl]
      exact nofun
    have settings : t.override overrides = s := by
      rw [Settings.eq_of_load hl, Settings.override_override]
      rfl
    have codes : (done.exit = .code 2 ↔ fails) ∧
        (done.exit = .code 0 ↔ ¬fails ∧ Completes files output input s) ∧
        (done.exit = .code 1 ↔ ¬fails ∧ ¬Completes files output input s) := by
      have ways := run_exit_of_load hl output input overrides
      rw [settings, ← ran] at ways
      refine exit_iff_of_ways (by decide) (by decide) (by decide) (.inr ?_)
      obtain ⟨zero, completes⟩ | ⟨one, stops⟩ := ways
      · exact .inl ⟨sound, completes, zero⟩
      · exact .inr ⟨sound, stops, one⟩
    refine ⟨codes.1, fun failing => absurd failing sound, codes.2.1, codes.2.2, ?_, ?_⟩
    · intro e _ unopened
      rw [← settings] at unopened
      have ended : done = _ := ran.trans (run_of_create_error hl unopened)
      rw [ended]
      exact ⟨rfl, rfl⟩
    · intro log _ opened
      have format : log.format = s.format := (LogFile.create_eq_ok_iff.mp opened).2.1
      have opened' := opened
      rw [← settings] at opened'
      refine ⟨?_, ?_, ?_⟩
      · rw [ran]
        exact run_frame hl opened'
      · intro before held
        rw [ran, ← format]
        exact run_logged hl opened' held
      · intro σ _ ch ls ms same read commands
        obtain ⟨_, _, ended⟩ := run_of_open hl opened' output read
        rw [ran, ended, Interpreter.run_failure_eq_none_iff, Interpreter.run_failure_eq_none_iff,
          same, commands]

/-- The format of the log is set in a file, and a log of an earlier run is there. -/
def staleFiles : Storage :=
  ⟨[], [(["in.txt"], .file "I 1 1\nX\nS\n".toUTF8), (["old.log"], .file "stale".toUTF8),
    (["bitmap.toml"], .file "[log]\nformat = \"json\"\n".toUTF8)]⟩

/-- There is room for the picture, or for all of it but the line break. -/
theorem main_exit_of_run_stale_log :
    let args := ["run", "in.txt", "--log", "old.log"]
    let wide := main .own staleFiles (.limited 2 .noSpace) args
    let narrow := main .own staleFiles (.limited 1 .noSpace) args
    let entry := "\x7b\"line\":2,\"issue_type\":\"unsupported\"," ++
      "\"message\":\"Unsupported command key X\"\x7d\n"
    Parsers.own.arguments args = .ok (.run "in.txt" ⟨some "old.log", none, none⟩ none) ∧
    wide.exit = .code 0 ∧ wide.files.node? ["old.log"] = some (.file entry.toUTF8) ∧
    narrow.exit = .code 1 ∧ narrow.files.node? ["old.log"] = some (.file entry.toUTF8) := by
  intro args wide narrow entry
  have accepted :
      Parsers.own.arguments args = .ok (.run "in.txt" ⟨some "old.log", none, none⟩ none) := rfl
  have source : Settings.source? staleFiles none = some "/bitmap.toml" :=
    (Settings.source?_at_root rfl).trans (if_pos rfl)
  have settings : staleFiles.readText "/bitmap.toml" = .ok "[log]\nformat = \"json\"\n" :=
    Storage.readText_eq_ok_iff.mpr rfl
  have stated : Settings.statedBy Parsers.own.toml staleFiles none = ⟨none, some .json, none⟩ := by
    rw [Settings.statedBy_of_source source, settings]
    decide +kernel
  have sound : ¬∃ path, Settings.source? staleFiles none = some path ∧
      Settings.Unusable Parsers.own.toml staleFiles path := by
    have loaded : Settings.load Parsers.own.toml staleFiles none =
        .ok ⟨"error_log.txt", .json, false⟩ := by
      rw [Settings.load_of_source source]
      exact Settings.readFile_eq_ok_iff.mpr ⟨_, settings, by decide +kernel, by decide⟩
    rw [← Settings.exists_load_error_iff, loaded]
    simp
  let log : LogFile := ⟨staleFiles.put ["old.log"] (.file .empty), ["old.log"], .json, false⟩
  have opened : LogFile.create staleFiles "old.log" .json false = .ok log := rfl
  let ls : List Line := [⟨1, "I", ["1", "1"]⟩, ⟨2, "X", []⟩, ⟨3, "S", []⟩]
  have read : Script.lines "I 1 1\nX\nS\n".toUTF8 = .ok ls :=
    (Script.lines_toUTF8 _).trans (congrArg _ (by decide +kernel))
  have loaded : Script.open? log.files "in.txt" = .ok ls :=
    Script.open_of_load (Script.load_eq_ok_iff.mpr ⟨_, Storage.readText_eq_ok_iff.mpr rfl, read⟩)
  have completes_iff (room : Nat) :
      Completes staleFiles (.limited room .noSpace) "in.txt" ⟨"old.log", .json, false⟩ ↔
        2 ≤ room := by
    have shown : Command.texts none (Line.commands ls) = ["", "O\n"] := by decide +kernel
    rw [completes_iff_of_create opened, loaded]
    constructor
    · rintro ⟨_, same, fits, _⟩
      cases same
      rw [shown] at fits
      exact Output.admits_limited_iff.mp fits
    · intro fits
      refine ⟨ls, rfl, ?_, rfl⟩
      rw [shown]
      exact Output.admits_limited_iff.mpr fits
  have entries_eq (output : Output) (all : Interpreter.start.handed ⟨log, output, []⟩ ls = ls) :
      EntryFormat.json.lines (Script.entries log.files "in.txt" ⟨log, output, []⟩) = entry := by
    rw [Script.entries, loaded]
    dsimp only
    rw [all]
    decide +kernel
  have ends (output : Output) := main_exit_of_run accepted staleFiles output
  rw [stated] at ends
  obtain ⟨_, _, zero, _, _, fits⟩ := ends (.limited 2 .noSpace)
  obtain ⟨_, _, _, one, _, stops⟩ := ends (.limited 1 .noSpace)
  refine ⟨accepted, zero.mpr ⟨sound, (completes_iff 2).mpr (by decide)⟩, ?_,
    one.mpr ⟨sound, mt (completes_iff 1).mp (by decide)⟩, ?_⟩
  · rw [← entries_eq (.limited 2 .noSpace) (by decide +kernel)]
    exact (fits log sound opened).2.1 .empty rfl
  · rw [← entries_eq (.limited 1 .noSpace) (by decide +kernel)]
    exact (stops log sound opened).2.1 .empty rfl

section Opened

variable {toml : Toml.Parser} {files : Storage} {input : String} {overrides : Overrides}
  {asked : Option String} {s : Settings} {log : LogFile}
  (loaded : Settings.load toml files asked = .ok s)
  (opened : LogFile.create files (s.override overrides).path (s.override overrides).format
    (s.override overrides).echo = .ok log)

include loaded opened

/-- With its log apart from its script, a run does what the script says, and keeps it. -/
theorem run_of_apart (output : Output)
    (apart : ∀ node, files.find input ≠ .ok (log.target, node)) {text : String} {ls : List Line}
    (readable : files.readText input = .ok text) (cut : Script.lines text.toUTF8 = .ok ls) :
    let p := Interpreter.start.run ⟨log, output, []⟩ ls
    let done := run toml files output input overrides asked
    done.files.readText input = .ok text ∧ done.output = p.channels.output ∧
      done.files = p.channels.log.files ∧ (done.exit = .code 0 ↔ p.failure = none) := by
  intro p done
  have script : Script.load files input = .ok ls := Script.load_eq_ok_iff.mpr ⟨text, readable, cut⟩
  have read : Script.open? log.files input = .ok ls :=
    Script.open_of_load (load_of_create opened apart script)
  have frame : files.SameBut done.files log.target := run_frame loaded opened
  have writable := (Storage.sameBut_of_create (LogFile.create_eq_ok_iff.mp opened).1).2
  have kept : done.files.readText input = .ok text :=
    Storage.readText_eq_ok_iff.mpr (Storage.read_of_sameBut frame writable apart
      (Storage.readText_eq_ok_iff.mp readable))
  exact ⟨kept, run_of_open loaded opened output read⟩

/-- With its log at the place of its script, a run finds an empty script, and leaves that. -/
theorem run_of_covered (output : Output) {node : Node}
    (found : files.find input = .ok (log.target, node)) :
    let done := run toml files output input overrides asked
    done.files.readText input = .ok "" ∧ done.output = output ∧ done.files = log.files ∧
      (done.exit = .code 0 ↔ output.unflushed = none) := by
  intro done
  have emptied : log.files.readText input = .ok "" := readText_of_create opened found
  have nothing : Script.lines "".toUTF8 = .ok [] := rfl
  have read : Script.open? log.files input = .ok [] :=
    Script.open_of_load (Script.load_eq_ok_iff.mpr ⟨"", emptied, nothing⟩)
  obtain ⟨shown, written, ended⟩ := run_of_open loaded opened output read
  refine ⟨?_, shown, written, ended⟩
  rw [written]
  exact emptied

end Opened

/-- A run keeps its script, and does what it says, exactly if the log is not opened at the place of
the script or the script is empty. Otherwise nothing is done, and nothing but the log is written. -/
theorem run_keeps_script_iff {toml : Toml.Parser} {files : Storage} {input text : String}
    (readable : files.readText input = .ok text) :
    ∃ ls, Script.lines text.toUTF8 = .ok ls ∧
      ∀ (output : Output) (overrides : Overrides) (asked : Option String),
        let done := run toml files output input overrides asked
        (∀ e, Settings.load toml files asked = .error e →
          done.output = output ∧ done.files = files) ∧
        ∀ s, Settings.load toml files asked = .ok s →
          let opening := LogFile.create files (s.override overrides).path
            (s.override overrides).format (s.override overrides).echo
          (∀ e, opening = .error e → done.output = output ∧ done.files = files) ∧
          ∀ log, opening = .ok log →
            let covered := ∃ node, files.find input = .ok (log.target, node)
            let meant := Interpreter.start.run ⟨log, output, []⟩ ls
            files.SameBut done.files log.target ∧
            ((s.override overrides).path = input → covered) ∧
            (done.files.readText input = .ok text ↔ ¬covered ∨ text = "") ∧
            (¬covered ∨ text = "" → done.output = meant.channels.output ∧
              done.files = meant.channels.log.files ∧
              (done.exit = .code 0 ↔ meant.failure = none)) ∧
            (covered → done.files.readText input = .ok "" ∧ done.output = output ∧
              done.files = log.files ∧ (done.exit = .code 0 ↔ output.unflushed = none)) := by
  obtain ⟨ls, cut⟩ : ∃ ls, Script.lines text.toUTF8 = .ok ls := ⟨_, Script.lines_toUTF8 text⟩
  refine ⟨ls, cut, ?_⟩
  intro output overrides asked done
  refine ⟨?_, ?_⟩
  · intro e unsettled
    have ended : done = _ := run_of_load_error unsettled
    rw [ended]
    exact ⟨rfl, rfl⟩
  intro s loaded opening
  refine ⟨?_, ?_⟩
  · intro e unopened
    have ended : done = _ := run_of_create_error loaded unopened
    rw [ended]
    exact ⟨rfl, rfl⟩
  intro log opened covered meant
  have named : (s.override overrides).path = input → covered := by
    intro same
    obtain ⟨⟨l, node⟩, found, _⟩ := bind_eq_ok_iff.mp (Storage.readText_eq_ok_iff.mp readable)
    obtain ⟨created, _⟩ := LogFile.create_eq_ok_iff.mp opened
    rw [same] at created
    obtain rfl := Storage.eq_of_create_of_find created found
    exact ⟨node, found⟩
  refine ⟨run_frame loaded opened, named, ?_⟩
  by_cases within : covered
  · obtain ⟨node, found⟩ := within
    have emptied := run_of_covered loaded opened output found
    have apart_iff : ¬covered ∨ text = "" ↔ text = "" := or_iff_right (not_not_intro ⟨node, found⟩)
    rw [apart_iff]
    refine ⟨?_, ?_, fun _ => emptied⟩
    · have left : done.files.readText input = .ok "" := emptied.1
      rw [left, Except.ok.injEq, eq_comm]
    · -- An empty script has no lines, before the log is opened as well as after.
      intro empty
      rw [empty] at cut
      cases cut
      exact emptied.2
  · obtain ⟨kept, same⟩ := run_of_apart loaded opened output (not_exists.mp within) readable cut
    exact ⟨iff_of_true kept (.inl within), fun _ => same, fun within' => absurd within' within⟩

theorem run_keeps_script_iff_two_logs :
    let text := "I 1 1\nS\n"
    let files : Storage := ⟨[], [(["a.txt"], .file text.toUTF8)]⟩
    let beside := run Toml.parse files .unlimited "a.txt" ⟨none, none, none⟩ none
    let onto := run Toml.parse files .unlimited "a.txt" ⟨some "./a.txt", none, none⟩ none
    files.readText "a.txt" = .ok text ∧
    beside.files.readText "a.txt" = .ok text ∧ beside.output.bytes = "O\n".toUTF8 ∧
    onto.files.readText "a.txt" = .ok "" ∧ onto.output.bytes = .empty := by
  intro text files beside onto
  have readable : files.readText "a.txt" = .ok text := Storage.readText_eq_ok_iff.mpr rfl
  have loaded : Settings.load Toml.parse files none = .ok .default := Settings.load_at_root rfl rfl
  have found : files.find "a.txt" = .ok (["a.txt"], .file text.toUTF8) := rfl
  obtain ⟨ls, cut, runs⟩ := run_keeps_script_iff readable
  obtain ⟨_, ends⟩ := (runs .unlimited ⟨none, none, none⟩ none).2 _ loaded
  obtain ⟨_, _, keeps, same, _⟩ :=
    ends ⟨files.put ["error_log.txt"] (.file .empty), ["error_log.txt"], .text, false⟩ rfl
  obtain ⟨_, empties⟩ := (runs .unlimited ⟨some "./a.txt", none, none⟩ none).2 _ loaded
  obtain ⟨_, _, _, _, lost⟩ :=
    empties ⟨files.put ["a.txt"] (.file .empty), ["a.txt"], .text, false⟩ rfl
  have apart : ¬∃ node, files.find "a.txt" = .ok (["error_log.txt"], node) := by
    rintro ⟨node, other⟩
    rw [found] at other
    simp at other
  have lines : Script.lines text.toUTF8 = .ok [⟨1, "I", ["1", "1"]⟩, ⟨2, "S", []⟩] :=
    (Script.lines_toUTF8 _).trans (congrArg _ (by decide +kernel))
  obtain ⟨left, shown, _⟩ := lost ⟨_, found⟩
  refine ⟨readable, keeps.mpr (.inl apart), ?_, left, congrArg Output.bytes shown⟩
  rw [(same (.inl apart)).1]
  cases cut.symm.trans lines
  decide +kernel

/-- By default the log is a file that a script can be in. -/
theorem run_empties_script :
    let text := "I 1 1\nS\n"
    let files : Storage := ⟨[], [(["error_log.txt"], .file text.toUTF8)]⟩
    let meant := Script.runFile files "error_log.txt" ⟨Journal.empty, .unlimited, []⟩
    let done := main .own files .unlimited ["run", "error_log.txt"]
    files.readText "error_log.txt" = .ok text ∧ meant.1.output.bytes = "O\n".toUTF8 ∧
    done.exit = .code 0 ∧ done.output.bytes = .empty ∧
    done.files.readText "error_log.txt" = .ok "" := by
  intro text files meant done
  have readable : files.readText "error_log.txt" = .ok text := Storage.readText_eq_ok_iff.mpr rfl
  have lines : Script.lines text.toUTF8 = .ok [⟨1, "I", ["1", "1"]⟩, ⟨2, "S", []⟩] :=
    (Script.lines_toUTF8 _).trans (congrArg _ (by decide +kernel))
  have script := Script.open_of_load (Script.load_eq_ok_iff.mpr ⟨text, readable, lines⟩)
  have loaded : Settings.load Toml.parse files none = .ok .default := Settings.load_at_root rfl rfl
  have found : files.find "error_log.txt" = .ok (["error_log.txt"], .file text.toUTF8) := rfl
  let log : LogFile :=
    ⟨files.put ["error_log.txt"] (.file .empty), ["error_log.txt"], .text, false⟩
  have opened : LogFile.create files (Settings.default.override ⟨none, none, none⟩).path
    (Settings.default.override ⟨none, none, none⟩).format
    (Settings.default.override ⟨none, none, none⟩).echo = .ok log := rfl
  obtain ⟨left, shown, _, ended⟩ := run_of_covered loaded opened .unlimited found
  refine ⟨readable, ?_, ended.mpr rfl, congrArg Output.bytes shown, left⟩
  have interpreted : meant = _ := Script.runFile_of_open script _
  rw [interpreted]
  decide +kernel

end PixelScript.Program
