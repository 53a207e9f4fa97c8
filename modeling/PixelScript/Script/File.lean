import PixelScript.Interpreter
import PixelScript.Line
import PixelScript.Script
import PixelScript.Storage.Frame

namespace PixelScript

namespace Script

/-- All lines of a file, or none. -/
def load (files : Storage) (path : String) : Except IoError (List Line) := do
  lines (← files.read path)

def open? (files : Storage) (path : String) : Except RunError (List Line) :=
  if files.contains path then (load files path).mapError (.unreadable path)
  else .error (.missing path)

theorem load_of_readText {files : Storage} {path text : String}
    (h : files.readText path = .ok text) : ∃ ls, load files path = .ok ls := by
  have read : files.read path = .ok text.toUTF8 := Storage.readText_eq_ok_iff.mp h
  exact ⟨_, bind_eq_ok_iff.mpr ⟨_, read, lines_toUTF8 text⟩⟩

theorem contains_of_load {files : Storage} {path : String} {ls : List Line}
    (h : load files path = .ok ls) : files.contains path = true := by
  obtain ⟨content, read, _⟩ := bind_eq_ok_iff.mp h
  exact Storage.contains_of_read read

theorem open_of_load {files : Storage} {path : String} {ls : List Line}
    (h : load files path = .ok ls) : open? files path = .ok ls := by
  rw [open?, if_pos (contains_of_load h), h]
  rfl

theorem load_of_open {files : Storage} {path : String} {ls : List Line}
    (h : open? files path = .ok ls) : load files path = .ok ls := by
  unfold open? at h
  split at h
  · exact mapError_eq_ok_iff.mp h
  · cases h

/-- Runs a file from the start. One that cannot be read leaves one entry in the log. -/
def runFile {σ : Type} [Log σ] (files : Storage) (path : String) (ch : Channels σ) :
    Channels σ × Except RunError Tally :=
  match open? files path with
  | .error e =>
    let receipt := Log.add ch.log (.fatal e.message)
    let ch := { ch with log := receipt.log, notices := ch.notices ++ receipt.echoed }
    (ch, .error (receipt.refusal.elim e .io))
  | .ok lines =>
    let p := Interpreter.start.run ch lines
    (p.channels, p.result)

/-- As long as the output takes everything, a file that can be read is run to its end. -/
theorem runFile_endless {σ : Type} [Log σ] {files : Storage} {path : String} {ls : List Line}
    (h : load files path = .ok ls) {ch : Channels σ} (ho : ch.output.Endless) :
    (runFile files path ch).1.log = Log.addAll ch.log ((Line.reports ls).map .rejected) ∧
      ∃ tally, (runFile files path ch).2 = .ok tally ∧
        tally.rejected = (Line.reports ls).length := by
  obtain ⟨ended, output, log, rejected⟩ := Interpreter.start.feed_endless ho ls
  unfold runFile
  rw [open_of_load h]
  dsimp only
  rw [Interpreter.run_of_feed _ ended output]
  refine ⟨log, (Interpreter.start.feed ch ls).interpreter.tally, ?_, ?_⟩
  · rw [Progress.result, ended]
  · simpa [Interpreter.start] using rejected

end Script

/-- The reports collected so far, in the order of the lines. -/
structure Audit where
  reports : List Report

namespace Audit

def start : Audit := ⟨[]⟩

def hasErrors (a : Audit) : Bool := !a.reports.isEmpty

def errorCount (a : Audit) : Nat := a.reports.length

def add (a : Audit) (line : Line) : Audit × Option Command :=
  match line.check with
  | .ok command => (a, some command)
  | .error report => (⟨a.reports ++ [report]⟩, none)

def addAll (a : Audit) (lines : List Line) : Audit :=
  lines.foldl (fun a line => (a.add line).1) a

/-- A file that cannot be read in full adds nothing. -/
def addFile (a : Audit) (files : Storage) (path : String) : Audit × Option IoError :=
  match Script.load files path with
  | .ok lines => (a.addAll lines, none)
  | .error e => (a, some e)

theorem addAll_eq (a : Audit) (ls : List Line) : a.addAll ls = ⟨a.reports ++ Line.reports ls⟩ := by
  induction ls generalizing a with
  | nil => simp [addAll, Line.reports]
  | cons line ls ih =>
    have step : (a.add line).1 = ⟨a.reports ++ line.report?.toList⟩ := by
      unfold add Line.report?
      cases line.check with
      | ok command => simp
      | error report => simp
    change (a.add line).1.addAll ls = _
    rw [step, ih, Line.reports_cons, List.append_assoc]

theorem addFile_of_load (a : Audit) {files : Storage} {path : String} {ls : List Line}
    (h : Script.load files path = .ok ls) :
    a.addFile files path = (⟨a.reports ++ Line.reports ls⟩, none) := by
  rw [addFile, h]
  dsimp only
  rw [addAll_eq]

end Audit

end PixelScript
