import PixelScript.CommandLine
import PixelScript.Script.File
import PixelScript.Settings

namespace PixelScript

/-- How a program ends. A text that has to be printed, and cannot be, makes it panic. -/
inductive Exit where
  | code (n : Nat)
  | panicked
  deriving DecidableEq

/-- What a program leaves behind; `notices` are the lines that it gives to standard error. -/
structure Outcome where
  exit : Exit
  output : Output
  notices : List String
  files : Storage

namespace Program

def helpText : String :=
  "Bitmap editor - interpret drawing commands (I, C, L, V, H, S) against a text bitmap\n\n" ++
  "Usage: bitmap <COMMAND>\n\n" ++
  "Commands:\n" ++
  "  run [--log <LOG>] [--log-format text|json] [--echo] [--config <CONFIG>] <INPUT>\n" ++
  "      Run a command file, printing the bitmap on every S\n" ++
  "  check [--json] <INPUT>\n" ++
  "      Validate a command file without executing it\n" ++
  "  help\n" ++
  "      Print this message\n"

def versionText : String := "bitmap 0.1.0\n"

def misuseNotice : String := "error: invalid arguments; for more information, try '--help'."

def failed (code : Nat) (message : String) (output : Output) (files : Storage) : Outcome :=
  ⟨.code code, output, [s!"Error: {message}"], files⟩

/-- The log is opened, and emptied, before the script is read. An error that the log has echoed
is not printed again. -/
def run (toml : Toml.Parser) (files : Storage) (output : Output) (input : String)
    (overrides : Overrides) (asked : Option String) : Outcome :=
  match Settings.load toml files asked with
  | .error e => failed 2 e.message output files
  | .ok s =>
    let s := s.override overrides
    match LogFile.create files s.path s.format s.echo with
    | .error e => failed 1 s!"Cannot open log file '{s.path}': {e.message}" output files
    | .ok log =>
      let (ch, result) := Script.runFile log.files input ⟨log, output, []⟩
      match result with
      | .ok _ => ⟨.code 0, ch.output, ch.notices, ch.log.files⟩
      | .error e =>
        let last :=
          match e with
          | .io _ => [s!"Error: {e.message}"]
          | .missing _ | .unreadable _ _ => if s.echo then [] else [s!"Error: {e.message}"]
        ⟨.code 1, ch.output, ch.notices ++ last, ch.log.files⟩

/-- A log opened apart from a script leaves the script as it was. -/
theorem load_of_create {files : Storage} {input path : String} {format : EntryFormat}
    {echo : Bool} {log : LogFile} (hl : LogFile.create files path format echo = .ok log)
    (apart : ∀ node, files.find input ≠ .ok (log.target, node)) {ls : List Line}
    (h : Script.load files input = .ok ls) : Script.load log.files input = .ok ls := by
  obtain ⟨⟨opened, target⟩, created, hl⟩ := bind_eq_ok_iff.mp hl
  cases hl
  obtain ⟨frame, writable⟩ := Storage.sameBut_of_create created
  obtain ⟨content, read, cut⟩ := bind_eq_ok_iff.mp h
  have kept : opened.read input = .ok content := Storage.read_of_sameBut frame writable apart read
  exact bind_eq_ok_iff.mpr ⟨content, kept, cut⟩

theorem run_of_ok {toml : Toml.Parser} {files : Storage} {output : Output} {input : String}
    {overrides : Overrides} {asked : Option String} {s : Settings} {log : LogFile} {tally : Tally}
    (hs : Settings.load toml files asked = .ok s)
    (hl : LogFile.create files (s.override overrides).path (s.override overrides).format
      (s.override overrides).echo = .ok log)
    (hr : (Script.runFile log.files input ⟨log, output, []⟩).2 = .ok tally) :
    run toml files output input overrides asked =
      ⟨.code 0, (Script.runFile log.files input ⟨log, output, []⟩).1.output,
        (Script.runFile log.files input ⟨log, output, []⟩).1.notices,
        (Script.runFile log.files input ⟨log, output, []⟩).1.log.files⟩ := by
  unfold run
  simp only [hs, hl, hr]

def countLine (n : Nat) : String :=
  let ending := if n = 1 then "" else "s"
  s!"Found {n} error{ending}.\n"

def listing (reports : List Report) : String :=
  match reports with
  | [] => "No issues found.\n"
  | reports =>
    String.join (reports.map fun r => r.text ++ "\n") ++ "\n" ++ countLine reports.length

/-- The listing of reports is the text of a log with them, and the count. -/
theorem listing_eq {reports : List Report} (h : reports ≠ []) :
    listing reports =
      EntryFormat.text.lines (reports.map .rejected) ++ "\n" ++ countLine reports.length := by
  cases reports with
  | nil => exact absurd rfl h
  | cons r rs =>
    have same : (r :: rs).map (fun r => r.text ++ "\n") =
        ((r :: rs).map .rejected).map EntryFormat.text.line := by
      rw [List.map_map]
      rfl
    rw [EntryFormat.lines, ← same]
    rfl

def jsonReport (r : Report) : String :=
  "    \x7b\n      \"issue_type\": " ++ Text.Quoted.encode r.issue.name ++
    ",\n      \"line\": " ++ toString r.line ++
    ",\n      \"message\": " ++ Text.Quoted.encode r.message ++ "\n    \x7d"

/-- Two spaces a level, and the keys of an object in alphabetical order. -/
def jsonListing (reports : List Report) : String :=
  let errors :=
    match reports with
    | [] => "[]"
    | reports => "[\n" ++ ",\n".intercalate (reports.map jsonReport) ++ "\n  ]"
  let valid := if reports.isEmpty then "true" else "false"
  "\x7b\n  \"errors\": " ++ errors ++ ",\n  \"valid\": " ++ valid ++ "\n\x7d\n"

/-- What a check says of a script that it cannot read. -/
def complaint (input : String) : RunError → String
  | .missing _ => s!"Commands file not present at {input}"
  | .unreadable _ cause | .io cause => s!"Cannot read '{input}': {cause.message}"

/-- Fails with this message, or in a panic if standard error refuses it. -/
def complain (message : String) (output errors : Output) (files : Storage) : Outcome :=
  match errors.write s!"Error: {message}\n" with
  | (_, none) => failed 1 message output files
  | (_, some e) =>
    ⟨.panicked, output, [s!"Error: {message}", s!"failed printing to stderr: {e.message}"], files⟩

def check (files : Storage) (output errors : Output) (input : String) (json : Bool) : Outcome :=
  if files.contains input then
    match Audit.start.addFile files input with
    | (_, some e) => complain (complaint input (.unreadable input e)) output errors files
    | (a, none) =>
      let text := if json then jsonListing a.reports else listing a.reports
      match output.write text with
      | (output, none) => ⟨.code (if a.hasErrors then 1 else 0), output, [], files⟩
      | (output, some e) =>
        ⟨.panicked, output, [s!"failed printing to stdout: {e.message}"], files⟩
  else complain (complaint input (.missing input)) output errors files

theorem check_endless {files : Storage} {input : String} {ls : List Line}
    (h : Script.load files input = .ok ls) {output : Output} (ho : output.Endless)
    (errors : Output) (json : Bool) :
    check files output errors input json =
      ⟨.code (if (Line.reports ls).isEmpty then 0 else 1),
        output.add (if json then jsonListing (Line.reports ls) else listing (Line.reports ls)),
        [], files⟩ := by
  have collected : Audit.start.addFile files input = (⟨Line.reports ls⟩, none) :=
    Audit.start.addFile_of_load h
  rw [check, if_pos (Script.contains_of_load h), collected]
  simp [Output.write_unlimited _ _ ho.room, Audit.hasErrors]

/-- Help and version are printed as far as the output takes them. Standard error takes all that it
is given. -/
def main (parsers : Parsers) (files : Storage) (output : Output) (args : List String) : Outcome :=
  match parsers.arguments args with
  | .ok (.run input overrides settings) => run parsers.toml files output input overrides settings
  | .ok (.check input json) => check files output .unlimited input json
  | .error .help => ⟨.code 0, (output.write helpText).1, [], files⟩
  | .error .version => ⟨.code 0, (output.write versionText).1, [], files⟩
  | .error .misuse => ⟨.code 2, output, [misuseNotice], files⟩

end Program

end PixelScript
