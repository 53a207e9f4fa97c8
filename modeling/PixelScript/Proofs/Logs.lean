import PixelScript.Log.Formats
import PixelScript.Log.Order
import PixelScript.Program
import PixelScript.Script.Unreadable

namespace PixelScript

open Text

/-- A log of text has a line for each rejected line, in order, with its number. No message breaks
its line, whatever stands in the script, so numbers and messages are read back from the log. -/
theorem textLog_of_script {files : Storage} {input path text : String} {echo : Bool}
    {log : LogFile} (readable : files.readText input = .ok text)
    (opened : LogFile.create files path .text echo = .ok log) (held : log.Holds .empty)
    (apart : ∀ node, files.find input ≠ .ok (log.target, node)) {output : Output}
    (endless : output.Endless) (notices : List String) :
    ∃ (ls : List Line) (rs : List Report), Script.lines text.toUTF8 = .ok ls ∧
      (∀ i < ls.length, ∃ segment, (text.toList.splitOn '\n')[i]? = some segment ∧
        ls[i]? = some (Line.ofText (i + 1) (String.ofList segment))) ∧
      (Line.rejected ls).map (fun line => (line.number, line.check)) =
        (rs.map fun r => (r.line, .error r)) ∧
      (rs.map Report.line).Pairwise (· < ·) ∧ (∀ r ∈ rs, Spaced r.message) ∧
      let content := ended (rs.map fun r => s!"Line {r.line} : {r.message}")
      let done := Script.runFile log.files input ⟨log, output, notices⟩
      (∃ tally, done.2 = .ok tally ∧ tally.rejected = rs.length) ∧
      done.1.log.Holds content.toUTF8 ∧ (linesOf content).length = rs.length ∧
      readLines? Report.ofText? content = some (rs.map fun r => (r.line, r.message)) := by
  obtain ⟨ls, read, _, segments⟩ := Script.exists_lines_of_text text
  have loaded : Script.load files input = .ok ls :=
    bind_eq_ok_iff.mpr ⟨_, Storage.readText_eq_ok_iff.mp readable, read⟩
  have reloaded : Script.load log.files input = .ok ls := Program.load_of_create opened apart loaded
  have format : log.format = .text := by
    obtain ⟨_, _, opened⟩ := bind_eq_ok_iff.mp opened
    cases opened
    rfl
  have spaced : ∀ r ∈ Line.reports ls, Spaced r.message := by
    intro r hr
    obtain ⟨line, hl, refused⟩ := Line.exists_of_mem_reports hr
    exact (Line.IsRead.ofScript read hl).spaced_message refused
  have numbers := (Script.pairwise_number_linesFrom read).2
  obtain ⟨cut, back⟩ := Report.readLines?_text spaced
  let ch : Channels LogFile := ⟨log, output, notices⟩
  have ready : ch.output.Endless := endless
  obtain ⟨logged, tally, ended, rejected⟩ := Script.runFile_endless reloaded ready
  obtain ⟨written, added, _, content⟩ := held.addAll ((Line.reports ls).map .rejected)
  rw [format, EntryFormat.lines_text, ByteArray.empty_append] at content
  refine ⟨ls, Line.reports ls, read, segments, Line.map_check_rejected ls,
    Line.pairwise_line_reports numbers, spaced, ⟨tally, ended, rejected⟩, ?_, ?_, back⟩
  · rw [logged, added]
    exact content
  · exact (congrArg List.length cut).trans (by simp)

/-- A key with a quote, a colon, a control character and a letter of two bytes, after a blank of
three, then a blank line and a line that ends with a return. -/
def oddKeys : String := "\u2003é\"\x01: 1\n\nI 2 2\r\nS 1\r\n"

def oddFiles : Storage :=
  ⟨[], [(["in.txt"], .file oddKeys.toUTF8), (["old.log"], .file "x".toUTF8)]⟩

theorem textLog_of_script_odd_keys :
    oddFiles.readText "in.txt" = .ok oddKeys ∧
    (∀ node, oddFiles.find "in.txt" ≠ .ok (["old.log"], node)) ∧
    ∃ log : LogFile, LogFile.create oddFiles "old.log" .text true = .ok log ∧
      log.Holds .empty ∧ log.target = ["old.log"] ∧ ∃ content : String,
      (Script.runFile log.files "in.txt" ⟨log, .unlimited, []⟩).1.log.Holds content.toUTF8 ∧
      readLines? Report.ofText? content = some [(1, "Unsupported command key é\"\x01:"),
        (2, "Unsupported command (empty line)"),
        (4, "Command key S does not require any parameters")] := by
  have readable : oddFiles.readText "in.txt" = .ok oddKeys := Storage.readText_eq_ok_iff.mpr rfl
  have apart : ∀ node, oddFiles.find "in.txt" ≠ .ok (["old.log"], node) := by
    intro node h
    have found : oddFiles.find "in.txt" = .ok (["in.txt"], .file oddKeys.toUTF8) := by rfl
    rw [found] at h
    simp at h
  let log : LogFile := ⟨oddFiles.put ["old.log"] (.file .empty), ["old.log"], .text, true⟩
  have opened : LogFile.create oddFiles "old.log" .text true = .ok log := by rfl
  have held : log.Holds .empty := by rfl
  have endless : Output.unlimited.Endless := ⟨rfl, rfl⟩
  obtain ⟨ls, rs, read, _, refused, _, _, _, written, _, back⟩ :=
    textLog_of_script readable opened held apart endless []
  have reports : rs = Line.reports ls := by
    have same := refused.symm.trans (Line.map_check_rejected ls)
    refine (List.map_inj_right ?_).mp same
    intro r r' h
    exact Except.error.inj (Prod.mk.inj h).2
  have lines : ls = Script.numbered 1 (Script.pieces '\n' oddKeys.toList) :=
    Except.ok.inj (read.symm.trans (Script.lines_toUTF8 oddKeys))
  have told : rs.map (fun r => (r.line, r.message)) = [(1, "Unsupported command key é\"\x01:"),
      (2, "Unsupported command (empty line)"),
      (4, "Command key S does not require any parameters")] := by
    rw [reports, lines]
    decide +kernel
  rw [told] at back
  exact ⟨readable, apart, log, opened, held, rfl, _, written, back⟩

open Text

/-- A log of objects loses nothing: each entry is added as an object on a line of its own, and the
entries are read back from what all of them leave. -/
theorem LogFile.json_lossless {log : LogFile} (format : log.format = .json)
    (held : log.Holds .empty) :
    (∀ e : Entry, Json.Printable e.json ∧ Json.object? e.json.toList = some e.members ∧
      Entry.ofMembers? e.members = some e) ∧
      ∀ es : List Entry, (Log.addAll log es).Holds (ended (es.map Entry.json)).toUTF8 ∧
        (∀ e, (Log.add (Log.addAll log es) e).refusal = none ∧
          (Log.add (Log.addAll log es) e).log.Holds
            (ended (es.map Entry.json) ++ (e.json ++ "\n")).toUTF8) ∧
        readLines? Entry.ofJson? (ended (es.map Entry.json)) = some es ∧
        ∀ content fs, (Log.addAll log es).Holds content → (Log.addAll log fs).Holds content →
          fs = es := by
  have kept (es : List Entry) :
      (Log.addAll log es).Holds (ended (es.map Entry.json)).toUTF8 ∧
        (Log.addAll log es).format = .json := by
    obtain ⟨files, added, _, written⟩ := held.addAll es
    rw [ByteArray.empty_append, format, EntryFormat.lines_json] at written
    rw [added]
    exact ⟨written, format⟩
  refine ⟨fun e => ⟨e.printable_json, e.object?_json, e.ofMembers?_members⟩, ?_⟩
  intro es
  refine ⟨(kept es).1, ?_, Entry.readLines?_json es, ?_⟩
  · intro e
    obtain ⟨taken, files, step, _, written⟩ := (kept es).1.add e
    have line : (Log.addAll log es).format.line e = e.json ++ "\n" := by
      rw [(kept es).2]
      rfl
    rw [line] at written
    rw [step]
    exact ⟨taken, by simpa using written⟩
  · intro content fs hes hfs
    have left : content = (ended (es.map Entry.json)).toUTF8 := hes.unique (kept es).1
    have right : content = (ended (fs.map Entry.json)).toUTF8 := hfs.unique (kept fs).1
    have same : ended (fs.map Entry.json) = ended (es.map Entry.json) := by
      rw [left, String.toUTF8_eq_toByteArray, String.toUTF8_eq_toByteArray,
        String.toByteArray_inj] at right
      exact right.symm
    have read := Entry.readLines?_json fs
    rw [same, Entry.readLines?_json es] at read
    exact (Option.some.inj read).symm

/-- Quotes, a backslash, line breaks, DEL and characters of one to four bytes. -/
def oddEntries : List Entry :=
  [.rejected ⟨7, .unsupported, "a \"b\" \\ \n\r\t\x7f é 😀"⟩, .fatal "", .fatal "\x00\x1f",
    .rejected ⟨0, .notNumeric, "\x7b\x7d"⟩]

theorem LogFile.json_lossless_odd_entries :
    let files : Storage := ⟨[], [(["old.log"], .file "x".toUTF8)]⟩
    ∃ log, LogFile.create files "old.log" .json true = .ok log ∧ log.format = .json ∧
      log.Holds .empty ∧
      ∃ content : String, (Log.addAll log oddEntries).Holds content.toUTF8 ∧
        readLines? Entry.ofJson? content = some oddEntries ∧
        ¬(Log.addAll log (oddEntries.take 3)).Holds content.toUTF8 := by
  intro files
  let log : LogFile := ⟨files.put ["old.log"] (.file .empty), ["old.log"], .json, true⟩
  have held : log.Holds .empty := by rfl
  obtain ⟨_, logged⟩ := LogFile.json_lossless rfl held
  obtain ⟨holds, _, read, alone⟩ := logged oddEntries
  refine ⟨log, by rfl, rfl, held, _, holds, read, ?_⟩
  intro fewer
  have same := alone _ _ holds fewer
  exact absurd same (by decide)

open Text

theorem Text.head?_append {c : Char} {s : String} (h : s.toList.head? = some c) (t : String) :
    (s ++ t).toList.head? = some c := by
  rw [String.toList_append, List.head?_append, h]
  rfl

/-- What keeps a script from starting does not read like a report. -/
theorem Script.Unreadable.head?_message {files : Storage} {path : String} {e : RunError}
    (h : Script.Unreadable files path e) : e.message.toList.head? = some 'C' := by
  have missing (path : String) : (RunError.missing path).message.toList.head? = some 'C' := by
    have head : "Commands file not present at ".toList.head? = some 'C' := by decide +kernel
    exact head?_append head path
  have unreadable (path : String) (cause : IoError) :
      (RunError.unreadable path cause).message.toList.head? = some 'C' := by
    have head : "Commands file could not be read at ".toList.head? = some 'C' := by decide +kernel
    exact head?_append (head?_append (head?_append head path) ": ") cause.message
  cases h with
  | unnamed => exact missing ""
  | missing => exact missing path
  | directory => exact unreadable path .isADirectory
  | garbled => exact unreadable path .notUtf8

/-- The first letter of what a run of a file has to log tells the two kinds of entries apart. -/
theorem Script.head?_text {σ : Type} [Log σ] {files : Storage} {path : String} {ch : Channels σ}
    {e : Entry} (h : e ∈ Script.entries files path ch) :
    e.text.toList.head? = some (if e.isFatal then 'C' else 'L') := by
  unfold Script.entries at h
  cases opened : Script.open? files path with
  | error cause =>
    rw [opened] at h
    obtain rfl := List.mem_singleton.mp h
    exact (Script.open?_eq_error_iff.mp opened).head?_message
  | ok ls =>
    rw [opened] at h
    obtain ⟨r, _, rfl⟩ := List.mem_map.mp h
    have head : "Line ".toList.head? = some 'L' := by decide +kernel
    exact head?_append (head?_append (head?_append head (toString r.line)) " : ") r.message

/-- A log of text keeps its entries in order, but a journal has the fatal errors first. So the two
agree if no fatal error comes after a report, and for entries that runs make only then. -/
theorem Journal.lines_in_order_iff {log : LogFile} (format : log.format = .text)
    (held : log.Holds .empty) (es : List Entry) :
    let journal := Log.addAll Journal.empty es
    let recorded := es.map Entry.text
    (Log.addAll log es).Holds (ended recorded).toUTF8 ∧
    ((∀ e ∈ es, '\n' ∉ e.message.toList) → linesOf (ended recorded) = recorded) ∧
    journal.lines = (Entry.sorted es).map Entry.text ∧ journal.lines.Perm recorded ∧
    (Entry.FatalsFirst es → journal.lines = recorded) ∧
    ((∀ e ∈ es, ∀ f ∈ es, e.isFatal → ¬f.isFatal → e.text ≠ f.text) →
      (journal.lines = recorded ↔ Entry.FatalsFirst es)) ∧
    ((∀ e ∈ es, ∃ files path, ∃ ch : Channels Journal, e ∈ Script.entries files path ch) →
      (journal.lines = recorded ↔ Entry.FatalsFirst es)) := by
  intro journal recorded
  have lines : journal.lines = (Entry.sorted es).map Entry.text := Journal.lines_addAll es
  obtain ⟨files, added, _, written⟩ := held.addAll es
  rw [ByteArray.empty_append, format, EntryFormat.lines_entries] at written
  have in_order (first : Entry.FatalsFirst es) : journal.lines = recorded := by
    rw [lines, Entry.sorted_of_fatalsFirst first]
  have only (apart : ∀ e ∈ es, ∀ f ∈ es, e.isFatal → ¬f.isFatal → e.text ≠ f.text) :
      journal.lines = recorded ↔ Entry.FatalsFirst es := by
    refine ⟨fun same => ?_, in_order⟩
    rw [lines] at same
    exact Entry.fatalsFirst_of_texts apart same
  refine ⟨?_, ?_, lines, ?_, in_order, only, fun logged => only ?_⟩
  · rw [added]
    exact written
  · intro framed
    exact linesOf_ended (List.forall_mem_map.mpr fun e he => Entry.framed_text (framed e he))
  · rw [lines]
    exact (Entry.sorted_perm es).map Entry.text
  · intro e he f hf fatal report same
    obtain ⟨_, _, _, entry⟩ := logged e he
    obtain ⟨_, _, _, other⟩ := logged f hf
    have head := (Script.head?_text entry).symm.trans (same ▸ Script.head?_text other)
    rw [if_pos fatal, if_neg report] at head
    exact absurd head (by decide)

/-- Two runs that do not start, and then one with a rejected line. From the last entry to the first,
the journal does not keep them. -/
theorem Journal.lines_in_order_iff_fatals_first :
    let es : List Entry := [.fatal "a", .fatal "", .rejected ⟨3, .arity, "m"⟩]
    ∃ log, LogFile.create ⟨[], []⟩ "e.log" .text false = .ok log ∧ log.Holds .empty ∧
      Entry.FatalsFirst es ∧ ∃ content : String, (Log.addAll log es).Holds content.toUTF8 ∧
        linesOf content = ["a", "", "Line 3 : m"] ∧
        (Log.addAll Journal.empty es).lines = linesOf content ∧
        (Log.addAll Journal.empty es.reverse).lines ≠ es.reverse.map Entry.text := by
  intro es
  let log : LogFile := ⟨⟨[], [(["e.log"], .file .empty)]⟩, ["e.log"], .text, false⟩
  have held : log.Holds .empty := by rfl
  have first : Entry.FatalsFirst es := by decide
  have framed : ∀ e ∈ es, '\n' ∉ e.message.toList := by decide
  have texts : es.map Entry.text = ["a", "", "Line 3 : m"] := by decide +kernel
  obtain ⟨written, cut, _, _, agree, _⟩ := Journal.lines_in_order_iff rfl held es
  have apart : ∀ e ∈ es.reverse, ∀ f ∈ es.reverse, e.isFatal → ¬f.isFatal → e.text ≠ f.text := by
    decide +kernel
  have late : ¬Entry.FatalsFirst es.reverse := by decide
  obtain ⟨_, _, _, _, _, only, _⟩ := Journal.lines_in_order_iff rfl held es.reverse
  refine ⟨log, by rfl, held, first, _, written, ?_, ?_, ?_⟩
  · exact (cut framed).trans texts
  · exact (agree first).trans (cut framed).symm
  · exact fun same => late ((only apart).mp same)

/-- One log for two runs, of which the second does not start: the file has the report first, and the
journal the error. -/
theorem Journal.lines_out_of_order :
    let files : Storage := ⟨[], [(["a.txt"], .file "X\n".toUTF8)]⟩
    let log : LogFile := ⟨files.put ["e.log"] (.file .empty), ["e.log"], .text, false⟩
    let report := "Line 1 : Unsupported command key X"
    let error := "Commands file not present at b.txt"
    let filed := Script.runFile files "b.txt" (Script.runFile files "a.txt" ⟨log, .unlimited, []⟩).1
    let kept := Script.runFile files "b.txt"
      (Script.runFile files "a.txt" ⟨Journal.empty, .unlimited, []⟩).1
    LogFile.create files "e.log" .text false = .ok log ∧
    (∃ content : String, filed.1.log.Holds content.toUTF8 ∧ linesOf content = [report, error]) ∧
    kept.1.log.lines = [error, report] ∧ ¬kept.1.log.lines = [report, error] := by
  intro files log report error filed kept
  let es : List Entry := [.rejected ⟨1, .unsupported, "Unsupported command key X"⟩, .fatal error]
  have read : Script.load files "a.txt" = .ok [⟨1, "X", []⟩] :=
    (Script.lines_toUTF8 "X\n").trans (congrArg _ (by decide +kernel))
  have refused : (Line.reports [⟨1, "X", []⟩]).map .rejected = es.take 1 := by decide +kernel
  have logged {σ : Type} [Log σ] (log : σ) :
      (Script.runFile files "b.txt"
        (Script.runFile files "a.txt" ⟨log, .unlimited, []⟩).1).1.log = Log.addAll log es := by
    let ch : Channels σ := ⟨log, .unlimited, []⟩
    have endless : ch.output.Endless := ⟨rfl, rfl⟩
    have first := (Script.runFile_endless read endless).1
    rw [refused] at first
    rw [Script.runFile_log, first]
    rfl
  have held : log.Holds .empty := rfl
  have texts : es.map Entry.text = [report, error] := by decide +kernel
  have framed : ∀ line ∈ [report, error], '\n' ∉ line.toList := by decide +kernel
  have lines : kept.1.log.lines = [error, report] := by
    unfold kept
    rw [logged, Journal.lines_addAll]
    decide +kernel
  obtain ⟨_, added, _, written⟩ := held.addAll es
  rw [ByteArray.empty_append, EntryFormat.lines_entries, texts] at written
  refine ⟨rfl, ⟨_, ?_, linesOf_ended framed⟩, lines, ?_⟩
  · unfold filed
    rw [logged, added]
    exact written
  · rw [lines]
    decide +kernel

end PixelScript
