import PixelScript.Log
import PixelScript.Log.Formats
import PixelScript.Program.Ending
import PixelScript.Script.File
import PixelScript.Script.Unreadable

namespace PixelScript

namespace Script

/-- A script that cannot be read in full is not run in part: nothing is printed, the log gets one
entry with the error, and an audit keeps the reports it has. -/
theorem nothing_of_unreadable {files : Storage} {path : String} {e : RunError}
    (h : Unreadable files path e) :
    (∀ (σ : Type) [Log σ] (ch : Channels σ),
      let receipt := Log.add ch.log (.fatal e.message)
      let done := runFile files path ch
      done.1.output = ch.output ∧ done.1.log = receipt.log ∧
        done.1.notices = ch.notices ++ receipt.echoed ∧
        (receipt.refusal = none → done.2 = .error e) ∧
        (∀ cause, receipt.refusal = some cause → done.2 = .error (.io cause)) ∧
        ∀ seen, (runFile files path (ch.watch seen)).1.log.seen =
            seen ++ [(.fatal e.message, receipt.refusal)] ∧
          (runFile files path (ch.watch seen)).1.unwatch = done.1 ∧
          (runFile files path (ch.watch seen)).2 = done.2) ∧
    ∀ a : Audit, ∃ cause, a.addFile files path = (a, some cause) ∧
      (e = .missing path ∧ files.contains path = false ∨
        e = .unreadable path cause ∧ files.contains path = true) := by
  refine ⟨?_, ?_⟩
  · intro σ _ ch receipt done
    have outcome : done = ({ ch with log := receipt.log, notices := ch.notices ++ receipt.echoed },
        .error (receipt.refusal.elim e .io)) := runFile_of_unreadable h ch
    rw [outcome]
    refine ⟨rfl, rfl, rfl, ?_, ?_, ?_⟩
    · intro taken
      rw [taken]
      rfl
    · intro cause refused
      rw [refused]
      rfl
    · intro seen
      rw [runFile_of_unreadable h]
      exact ⟨rfl, rfl, rfl⟩
  · intro a
    obtain ⟨cause, failed, kind⟩ := h.exists_load_error
    refine ⟨cause, ?_, kind⟩
    rw [Audit.addFile, failed]

/-- Three lines could be read, and the fourth breaks off within a letter. -/
def brokenOff : ByteArray := "I 1 1\nS\nX 9\n".toUTF8 ++ ⟨#[0x53, 0xC3]⟩

theorem nothing_of_unreadable_broken_off :
    let files : Storage := ⟨[], [(["in.txt"], .file brokenOff)]⟩
    let e : RunError := .unreadable "in.txt" .notUtf8
    let plain : Channels Journal := ⟨.empty, .unlimited, []⟩
    let broken : Channels (GuardedLog Journal) := ⟨⟨.empty, some .noSpace⟩, .unlimited, []⟩
    let a : Audit := ⟨[⟨1, .arity, "Command key S does not require any parameters"⟩]⟩
    Unreadable files "in.txt" e ∧
    (runFile files "in.txt" plain).1.output.bytes = .empty ∧
    (runFile files "in.txt" plain).1.log = ⟨[],
      ["Commands file could not be read at in.txt: stream did not contain valid UTF-8"]⟩ ∧
    (runFile files "in.txt" plain).2 = .error e ∧
    (runFile files "in.txt" broken).2 = .error (.io .noSpace) ∧
    a.addFile files "in.txt" = (a, some .notUtf8) := by
  intro files e plain broken a
  have last : [0x53, 0xC3] ∈ segments brokenOff.data.toList := by decide +kernel
  have found : files.find "in.txt" = .ok (["in.txt"], .file brokenOff) := rfl
  have cutShort : ¬([0x53, 0xC3] : List UInt8).toByteArray.IsValidUTF8 := by decide +kernel
  have unreadable : Unreadable files "in.txt" e := .garbled found last cutShort
  obtain ⟨runs, audits⟩ := nothing_of_unreadable unreadable
  obtain ⟨output, log, _, returned, _⟩ := runs Journal plain
  obtain ⟨_, _, _, _, refused, _⟩ := runs (GuardedLog Journal) broken
  obtain ⟨cause, audited, ⟨missing, _⟩ | ⟨same, _⟩⟩ := audits a
  · exact RunError.noConfusion missing
  · have invalid : IoError.notUtf8 = cause := (RunError.unreadable.inj same).2
    rw [← invalid] at audited
    exact ⟨unreadable, congrArg Output.bytes output, log, returned rfl, refused _ rfl, audited⟩

end Script

/-- The entry for a script that cannot be read has the line breaks of the path in it, unless its
format escapes them. -/
theorem EntryFormat.line_of_unreadable {files : Storage} {input : String} {e : RunError}
    (h : Script.Unreadable files input e) (format : EntryFormat) :
    ∃ line, format.line (.fatal e.message) = line ++ "\n" ∧ line.toList.count '\n' =
      if format = .text then input.toList.count '\n' else 0 := by
  cases format with
  | text => exact ⟨e.message, rfl, h.count_message⟩
  | json =>
    refine ⟨(Entry.fatal e.message).json, rfl, List.count_eq_zero.mpr fun broken => ?_⟩
    exact absurd ((Entry.fatal e.message).printable_json '\n' broken) (by decide)

namespace Program

variable {parsers : Parsers} {args : List String} {toml : Toml.Parser} {files : Storage}
  {input : String} {overrides : Overrides} {asked : Option String} {s : Settings} {log : LogFile}
  {before : ByteArray} {e : RunError}

/-- A log that is opened apart from a script does not make it readable. -/
theorem unreadable_of_create {path : String} {format : EntryFormat} {echo : Bool}
    (opened : LogFile.create files path format echo = .ok log)
    (apart : ∀ node, log.files.find input ≠ .ok (log.target, node))
    (h : Script.Unreadable files input e) : Script.Unreadable log.files input e := by
  have created := (LogFile.create_eq_ok_iff.mp opened).1
  apply h.congr
  rintro ⟨k, node⟩
  constructor
  · intro found
    have other : k ≠ log.target := by
      rintro rfl
      exact apart node found
    exact (Storage.find_of_create_iff created other).mp found
  · intro found
    have other : k ≠ log.target := Storage.ne_of_create_of_find created apart found
    exact (Storage.find_of_create_iff created other).mpr found

section Opened

variable (loaded : Settings.load toml files asked = .ok s)
  (opened : LogFile.create files (s.override overrides).path (s.override overrides).format
    (s.override overrides).echo = .ok log)
  (held : log.Holds before)

include loaded opened held

/-- A run that cannot read its script logs that, and nothing else. -/
theorem run_of_unreadable (apart : ∀ node, log.files.find input ≠ .ok (log.target, node))
    (unreadable : Script.Unreadable files input e) (output : Output) :
    let done := run toml files output input overrides asked
    done.exit = .code 1 ∧ done.output = output ∧
      done.files.node? log.target =
        some (.file (log.format.line (.fatal e.message)).toUTF8) := by
  intro done
  have still : Script.Unreadable log.files input e := unreadable_of_create opened apart unreadable
  have entries : Script.entries log.files input ⟨log, output, []⟩ = [.fatal e.message] := by
    rw [Script.entries, Script.open?_eq_error_iff.mpr still]
  have written : done.files.node? log.target = _ := run_logged loaded opened held
  obtain ⟨shown, _, ended⟩ := run_of_create loaded opened output input
  rw [Script.runFile_of_unreadable still] at shown ended
  obtain ⟨_, _, returned⟩ | ⟨code, _⟩ := ended
  · cases returned
  · refine ⟨code, shown, ?_⟩
    rw [written, entries, EntryFormat.lines_cons, EntryFormat.lines, List.map_nil, String.join_nil,
      String.append_empty]

/-- A log at the place where the script is looked for makes an empty script. -/
theorem run_of_log_found {node : Node} (found : log.files.find input = .ok (log.target, node))
    (output : Output) :
    (run toml files output input overrides asked).files.node? log.target = some (.file .empty) := by
  have emptied : log.Holds .empty := LogFile.holds_of_create opened held
  obtain ⟨_, _, there⟩ := Storage.find_eq_ok_iff.mp found
  have nothing : Script.open? log.files input = .ok [] := by
    cases emptied.symm.trans there
    exact Script.open_of_load (Script.load_of_file found)
  obtain ⟨_, written, _⟩ := run_of_open loaded opened output nothing
  rw [written]
  exact emptied

end Opened

/-- A run that cannot read its script logs that, and nothing else. This is one line exactly if the
format escapes line breaks or there is none in the path. -/
theorem main_logs_unreadable
    (accepted : parsers.arguments args = .ok (.run input overrides asked))
    (loaded : Settings.load parsers.toml files asked = .ok s)
    (opened : LogFile.create files (s.override overrides).path (s.override overrides).format
      (s.override overrides).echo = .ok log)
    (held : log.Holds before) (unreadable : Script.Unreadable files input e) (output : Output) :
    let done := main parsers files output args
    let apart := ∀ node, log.files.find input ≠ .ok (log.target, node)
    let entry := log.format.line (.fatal e.message)
    (apart → done.exit = .code 1 ∧ done.output = output ∧
      done.files.node? log.target = some (.file entry.toUTF8) ∧
      entry.toList.count '\n' = 1 + (if log.format = .text then input.toList.count '\n' else 0) ∧
      (Text.OneLine entry ↔ log.format = .json ∨ '\n' ∉ input.toList)) ∧
    (¬apart → done.files.node? log.target = some (.file .empty)) := by
  intro done apart entry
  have ran : done = run parsers.toml files output input overrides asked := by
    unfold done main
    rw [accepted]
  rw [ran]
  constructor
  · intro elsewhere
    obtain ⟨code, shown, content⟩ := run_of_unreadable loaded opened held elsewhere unreadable output
    obtain ⟨line, parts, breaks⟩ := log.format.line_of_unreadable unreadable
    have entry_eq : entry = line ++ "\n" := parts
    refine ⟨code, shown, content, ?_, ?_⟩
    · rw [entry_eq, String.toList_append, List.count_append, breaks, Nat.add_comm]
      rfl
    · rw [entry_eq, Text.oneLine_append_break, ← List.count_eq_zero, breaks, ← List.count_eq_zero]
      cases log.format with
      | text => simp
      | json => simp
  · intro within
    obtain ⟨node, found⟩ := Classical.not_forall_not.mp within
    exact run_of_log_found loaded opened held found output

/-- A directory with a line break in its name. -/
theorem main_logs_unreadable_broken_name :
    let files : Storage := ⟨[], [(["d\ne"], .directory)]⟩
    let args := ["run", "d\ne", "--log-format", "json"]
    let entry := "\x7b\"message\":\"Commands file could not be read at d\\ne: " ++
      "Is a directory (os error 21)\"\x7d\n"
    let done := main .own files .unlimited args
    Parsers.own.arguments args = .ok (.run "d\ne" ⟨none, some .json, none⟩ none) ∧
    Script.Unreadable files "d\ne" (.unreadable "d\ne" .isADirectory) ∧
    done.exit = .code 1 ∧ done.files.node? ["error_log.txt"] = some (.file entry.toUTF8) ∧
    Text.OneLine entry := by
  intro files args entry done
  have accepted :
      Parsers.own.arguments args = .ok (.run "d\ne" ⟨none, some .json, none⟩ none) := rfl
  have loaded : Settings.load Toml.parse files none = .ok .default := Settings.load_at_root rfl rfl
  let log : LogFile :=
    ⟨files.put ["error_log.txt"] (.file .empty), ["error_log.txt"], .json, false⟩
  have opened : LogFile.create files "error_log.txt" .json false = .ok log := rfl
  have unreadable : Script.Unreadable files "d\ne" (.unreadable "d\ne" .isADirectory) :=
    .directory (l := ["d\ne"]) rfl
  have found : log.files.find "d\ne" = .ok (["d\ne"], .directory) := rfl
  have apart : ∀ node, log.files.find "d\ne" ≠ .ok (log.target, node) := by
    intro node other
    rw [found] at other
    simp [log] at other
  have same : log.format.line (.fatal (RunError.unreadable "d\ne" .isADirectory).message) = entry :=
    by decide +kernel
  obtain ⟨code, _, content, _, line_iff⟩ :=
    (main_logs_unreadable accepted loaded opened rfl unreadable .unlimited).1 apart
  rw [same] at content line_iff
  exact ⟨accepted, unreadable, code, content, line_iff.mpr (.inl rfl)⟩

/-- As text, the error goes over two lines if there is a line break in the path. -/
theorem main_logs_two_lines :
    let files : Storage := ⟨[], []⟩
    let entry := "Commands file not present at a\nb\n"
    Script.Unreadable files "a\nb" (.missing "a\nb") ∧
    (main .own files .unlimited ["run", "a\nb"]).files.node? ["error_log.txt"] =
      some (.file entry.toUTF8) ∧
    ¬Text.OneLine entry := by
  intro files entry
  have loaded : Settings.load Toml.parse files none = .ok .default := Settings.load_at_root rfl rfl
  let log : LogFile :=
    ⟨files.put ["error_log.txt"] (.file .empty), ["error_log.txt"], .text, false⟩
  have opened : LogFile.create files (Settings.default.override ⟨none, none, none⟩).path
    (Settings.default.override ⟨none, none, none⟩).format
    (Settings.default.override ⟨none, none, none⟩).echo = .ok log := rfl
  have before : files.find "a\nb" = .error .notFound := rfl
  have after : log.files.find "a\nb" = .error .notFound := rfl
  have missing : Script.Unreadable files "a\nb" (.missing "a\nb") := .missing (by simp [before])
  have written := run_of_unreadable loaded opened rfl (by simp [after]) missing .unlimited
  have parts : entry = "Commands file not present at a\nb" ++ "\n" := by decide +kernel
  have broken : '\n' ∈ "Commands file not present at a\nb".toList := by decide +kernel
  refine ⟨missing, written.2.2, ?_⟩
  rw [parts, Text.oneLine_append_break]
  exact not_not_intro broken

end Program

end PixelScript
