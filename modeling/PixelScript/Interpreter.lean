import PixelScript.Command.Sequence
import PixelScript.Log
import PixelScript.Output

namespace PixelScript

/-- Lines seen, and what became of them. -/
structure Tally where
  lines : Nat
  executed : Nat
  rejected : Nat
  deriving DecidableEq

/-- The canvas, once there is one, and the counts of lines and of reports that the log refused. -/
structure Interpreter where
  canvas : Option Canvas
  tally : Tally
  unlogged : Nat
  deriving DecidableEq

/-- Where an interpreter writes: rejected lines, pictures, and lines on standard error. -/
structure Channels (σ : Type) where
  log : σ
  output : Output
  notices : List String

/-- Where a step or a run ended, and the output error that ended it, if any. -/
structure Progress (σ : Type) where
  interpreter : Interpreter
  channels : Channels σ
  failure : Option IoError

/-- Why a run of a script ends early. -/
inductive RunError where
  | missing (path : String)
  | unreadable (path : String) (cause : IoError)
  | io (cause : IoError)
  deriving DecidableEq

def RunError.message : RunError → String
  | missing path => s!"Commands file not present at {path}"
  | unreadable path cause => s!"Commands file could not be read at {path}: {cause.message}"
  | io cause => s!"I/O error: {cause.message}"

/-- What a run returns: the counts so far, or the error that ended it. -/
def Progress.result {σ : Type} (p : Progress σ) : Except RunError Tally :=
  match p.failure with
  | none => .ok p.interpreter.tally
  | some cause => .error (.io cause)

theorem Progress.result_eq_ok_iff {σ : Type} {p : Progress σ} {tally : Tally} :
    p.result = .ok tally ↔ p.failure = none ∧ p.interpreter.tally = tally := by
  unfold result
  cases p.failure with
  | none => simp
  | some cause => simp

namespace Interpreter

def start : Interpreter := ⟨none, ⟨0, 0, 0⟩, 0⟩

def unloggedNotice (cause : IoError) : String :=
  s!"Warning: could not write to diagnostic log: {cause.message}"

/-- A lost report stops nothing, and is announced only if it is the first. -/
def reject {σ : Type} [Log σ] (s : Interpreter) (ch : Channels σ) (report : Report) : Progress σ :=
  let receipt := Log.add ch.log (.rejected report)
  let ch := { ch with log := receipt.log, notices := ch.notices ++ receipt.echoed }
  match receipt.refusal with
  | none => ⟨s, ch, none⟩
  | some cause =>
    let announced := if s.unlogged = 0 then [unloggedNotice cause] else []
    ⟨{ s with unlogged := s.unlogged + 1 }, { ch with notices := ch.notices ++ announced }, none⟩

/-- What a response prints. -/
def printout : Response → Option String
  | .printed text => some (text ++ "\n")
  | .noCanvas => some "No bitmap created yet\n"
  | .done | .ignored => none

/-- A failed write undoes nothing. -/
def carryOut {σ : Type} (s : Interpreter) (ch : Channels σ) (command : Command) : Progress σ :=
  let (response, canvas) := command.execute s.canvas
  let s := { s with canvas }
  match printout response with
  | none => ⟨s, ch, none⟩
  | some text =>
    let (output, failure) := ch.output.write text
    ⟨s, { ch with output }, failure⟩

def process {σ : Type} [Log σ] (s : Interpreter) (ch : Channels σ) (line : Line) : Progress σ :=
  let lines := s.tally.lines + 1
  match line.check with
  | .error report =>
    let tally := { s.tally with lines, rejected := s.tally.rejected + 1 }
    reject { s with tally } ch report
  | .ok command =>
    let tally := { s.tally with lines, executed := s.tally.executed + 1 }
    carryOut { s with tally } ch command

/-- Line by line up to the first that cannot be printed. -/
def feed {σ : Type} [Log σ] (s : Interpreter) (ch : Channels σ) : List Line → Progress σ
  | [] => ⟨s, ch, none⟩
  | line :: lines =>
    let p := s.process ch line
    match p.failure with
    | none => feed p.interpreter p.channels lines
    | some _ => p

/-- Feeds the lines and flushes the output. -/
def run {σ : Type} [Log σ] (s : Interpreter) (ch : Channels σ) (lines : List Line) : Progress σ :=
  let p := s.feed ch lines
  match p.failure with
  | none => { p with failure := p.channels.output.unflushed }
  | some _ => p

theorem feed_append {σ : Type} [Log σ] (s : Interpreter) (ch : Channels σ) (as bs : List Line) :
    s.feed ch (as ++ bs) =
      match (s.feed ch as).failure with
      | none => (s.feed ch as).interpreter.feed (s.feed ch as).channels bs
      | some _ => s.feed ch as := by
  induction as generalizing s ch with
  | nil => rfl
  | cons a as ih =>
    rw [List.cons_append, feed, feed]
    cases h : (s.process ch a).failure with
    | none => simp only [ih]
    | some e => simp only [h]

end Interpreter

def Tally.accept (t : Tally) : Tally := ⟨t.lines + 1, t.executed + 1, t.rejected⟩

def Tally.refuse (t : Tally) : Tally := ⟨t.lines + 1, t.executed, t.rejected + 1⟩

namespace Interpreter

variable {σ : Type}

/-- A command changes the canvas by itself, and what it shows is one write. -/
theorem carryOut_eq (s : Interpreter) (ch : Channels σ) (k : Command) :
    s.carryOut ch k = ⟨{ s with canvas := (k.execute s.canvas).2 },
      { ch with output := (ch.output.write (k.execute s.canvas).1.shown).1 },
      (ch.output.write (k.execute s.canvas).1.shown).2⟩ := by
  unfold carryOut
  cases hk : k.execute s.canvas with
  | mk response canvas =>
    cases response with
    | done => simp [printout, Response.shown, Output.write_empty]
    | ignored => simp [printout, Response.shown, Output.write_empty]
    | printed text => simp [printout, Response.shown]
    | noCanvas => simp [printout, Response.shown]

/-- Where every write succeeds, a command does to the canvas what it does without an interpreter
around it, and its response is what is printed. -/
theorem carryOut_endless (s : Interpreter) {ch : Channels σ} (h : ch.output.Endless)
    (k : Command) :
    s.carryOut ch k = ⟨{ s with canvas := (k.execute s.canvas).2 },
      { ch with output := ch.output.add (k.execute s.canvas).1.shown }, none⟩ := by
  rw [carryOut_eq, Output.write_unlimited _ _ h.room]

section Log

variable [Log σ]

theorem process_of_check_ok (s : Interpreter) (ch : Channels σ) {line : Line} {k : Command}
    (h : line.check = .ok k) :
    s.process ch line = carryOut { s with tally := s.tally.accept } ch k := by
  simp only [process, h, Tally.accept]

theorem process_of_check_error (s : Interpreter) (ch : Channels σ) {line : Line} {r : Report}
    (h : line.check = .error r) :
    s.process ch line = reject { s with tally := s.tally.refuse } ch r := by
  simp only [process, h, Tally.refuse]

/-- A rejected line leaves the canvas and the output alone, and goes to the log. -/
theorem reject_frame (s : Interpreter) (ch : Channels σ) (r : Report) :
    (s.reject ch r).failure = none ∧ (s.reject ch r).interpreter.canvas = s.canvas ∧
      (s.reject ch r).interpreter.tally = s.tally ∧
      (s.reject ch r).channels.output = ch.output ∧
      (s.reject ch r).channels.log = (Log.add ch.log (.rejected r)).log := by
  unfold reject
  cases h : (Log.add ch.log (.rejected r)).refusal with
  | none => simp only [h, and_self]
  | some cause => simp only [h, and_self]

/-- A line stops nothing as long as the output takes everything. Its report, if there is one, is
what the log gets of it. -/
theorem process_endless (s : Interpreter) {ch : Channels σ} (h : ch.output.Endless) (line : Line) :
    (s.process ch line).failure = none ∧ (s.process ch line).channels.output.Endless ∧
      (s.process ch line).channels.log =
        Log.addAll ch.log (line.report?.toList.map .rejected) ∧
      (s.process ch line).interpreter.tally.rejected =
        s.tally.rejected + line.report?.toList.length := by
  unfold Line.report?
  cases hc : line.check with
  | ok k =>
    rw [process_of_check_ok s ch hc, carryOut_endless _ h]
    exact ⟨rfl, h.add _, rfl, rfl⟩
  | error r =>
    rw [process_of_check_error s ch hc]
    obtain ⟨going, _, tally, output, log⟩ := reject_frame { s with tally := s.tally.refuse } ch r
    refine ⟨going, ?_, log, ?_⟩
    · rw [output]
      exact h
    · rw [tally]
      rfl

theorem feed_cons_of_none (s : Interpreter) (ch : Channels σ) {line : Line} {lines : List Line}
    (h : (s.process ch line).failure = none) :
    s.feed ch (line :: lines) =
      (s.process ch line).interpreter.feed (s.process ch line).channels lines := by
  rw [feed]
  simp only [h]

/-- As long as the output takes everything, every line is read and the log gets all reports. -/
theorem feed_endless (s : Interpreter) {ch : Channels σ} (h : ch.output.Endless)
    (lines : List Line) :
    (s.feed ch lines).failure = none ∧ (s.feed ch lines).channels.output.Endless ∧
      (s.feed ch lines).channels.log =
        Log.addAll ch.log ((Line.reports lines).map .rejected) ∧
      (s.feed ch lines).interpreter.tally.rejected =
        s.tally.rejected + (Line.reports lines).length := by
  induction lines generalizing s ch with
  | nil => exact ⟨rfl, h, rfl, rfl⟩
  | cons line lines ih =>
    obtain ⟨going, output, log, rejected⟩ := s.process_endless h line
    obtain ⟨ended, outputs, logs, rejections⟩ := ih (s.process ch line).interpreter output
    rw [feed_cons_of_none s ch going]
    refine ⟨ended, outputs, ?_, ?_⟩
    · rw [logs, log, Line.reports_cons, List.map_append, Log.addAll_append]
    · rw [rejections, rejected, Line.reports_cons, List.length_append, Nat.add_assoc]

theorem run_of_feed (s : Interpreter) {ch : Channels σ} {lines : List Line}
    (h : (s.feed ch lines).failure = none) (ho : (s.feed ch lines).channels.output.Endless) :
    s.run ch lines = s.feed ch lines := by
  unfold run
  generalize s.feed ch lines = p at h ho ⊢
  obtain ⟨t, c, failure⟩ := p
  have unflushed : c.output.unflushed = none := ho.unflushed
  cases h
  simp only [unflushed]

end Log

end Interpreter

end PixelScript
