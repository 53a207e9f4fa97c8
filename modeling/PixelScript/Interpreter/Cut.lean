import PixelScript.Interpreter
import PixelScript.Output

namespace PixelScript

/-- What commands print one after the other, a text for each; most texts are empty. -/
def Command.texts (canvas : Option Canvas) (ks : List Command) : List String :=
  (responses canvas ks).map Response.shown

theorem Command.texts_cons (canvas : Option Canvas) (k : Command) (ks : List Command) :
    texts canvas (k :: ks) = (k.execute canvas).1.shown :: texts (k.execute canvas).2 ks := rfl

namespace Interpreter

variable {σ : Type} [Log σ]

/-- The accepted lines alone decide what lines come to: what the output gets of them and whether
it fails, how many of their commands are carried out, and the canvas after those. -/
theorem feed_commands (s : Interpreter) (ch : Channels σ) (lines : List Line) :
    let w := ch.output.writeAll (Command.texts s.canvas (Line.commands lines))
    (s.feed ch lines).channels.output = w.output ∧ (s.feed ch lines).failure = w.failure ∧
      (s.feed ch lines).interpreter.tally.executed = s.tally.executed + w.tried ∧
      (s.feed ch lines).interpreter.canvas =
        Command.canvasAfter s.canvas ((Line.commands lines).take w.tried) := by
  induction lines generalizing s ch with
  | nil => exact ⟨rfl, rfl, rfl, rfl⟩
  | cons line lines ih =>
    cases hc : line.check with
    | error r =>
      obtain ⟨going, canvas, tally, output, _⟩ :=
        reject_frame { s with tally := s.tally.refuse } ch r
      -- Neither the canvas nor the output changes, so the rest starts from what it would without.
      have step := process_of_check_error s ch hc
      rw [← step] at going canvas tally output
      have rest := ih (s.process ch line).interpreter (s.process ch line).channels
      rw [canvas, tally, output] at rest
      rw [feed_cons_of_none s ch going, Line.commands_cons_of_error hc]
      exact rest
    | ok k =>
      have step := process_of_check_ok s ch hc
      rw [carryOut_eq] at step
      rw [Line.commands_cons_of_ok hc, Command.texts_cons, Output.writeAll]
      cases hw : ch.output.write (k.execute s.canvas).1.shown with
      | mk output failure =>
        simp only [hw] at step
        cases failure with
        | none =>
          have rest := ih (s.process ch line).interpreter (s.process ch line).channels
          rw [feed_cons_of_none s ch (by rw [step])]
          simp only [step] at rest ⊢
          refine ⟨rest.1, rest.2.1, ?_, ?_⟩
          · rw [rest.2.2.1]
            simp only [Tally.accept]
            omega
          · rw [rest.2.2.2]
            rfl
        | some e =>
          rw [feed]
          simp only [step]
          exact ⟨trivial, trivial, rfl, rfl⟩

theorem run_channels (s : Interpreter) (ch : Channels σ) (lines : List Line) :
    (s.run ch lines).channels = (s.feed ch lines).channels ∧
      (s.run ch lines).interpreter = (s.feed ch lines).interpreter := by
  unfold run
  cases h : (s.feed ch lines).failure with
  | none => simp only [h, and_self]
  | some e => simp only [h, and_self]

/-- A run that gets through all lines still fails if the output cannot be flushed. -/
theorem run_failure (s : Interpreter) (ch : Channels σ) (lines : List Line) :
    (s.run ch lines).failure = (s.feed ch lines).failure.or ch.output.unflushed := by
  have unflushed : (s.feed ch lines).channels.output.unflushed = ch.output.unflushed := by
    rw [(s.feed_commands ch lines).1, Output.writeAll_unflushed]
  unfold run
  cases h : (s.feed ch lines).failure with
  | none => simp only [h, unflushed, Option.none_or]
  | some e => simp only [h, Option.some_or]

theorem run_failure_eq_none_iff (s : Interpreter) (ch : Channels σ) (lines : List Line) :
    (s.run ch lines).failure = none ↔
      ch.output.Accepts (Command.texts s.canvas (Line.commands lines)) := by
  rw [run_failure, Option.or_eq_none_iff, (s.feed_commands ch lines).2.1,
    Output.writeAll_failure_eq_none_iff]
  rfl

end Interpreter

variable {σ : Type}

/-- All that a step or a run leaves behind apart from its output. -/
def Progress.besidesOutput (p : Progress σ) : Interpreter × σ × List String :=
  (p.interpreter, p.channels.log, p.channels.notices)

namespace Interpreter

variable [Log σ]

section Besides

variable {ch dh : Channels σ}

/-- Whether a line can be printed makes no difference to the interpreter and the log. -/
theorem process_besidesOutput (s : Interpreter) (log : ch.log = dh.log)
    (notices : ch.notices = dh.notices) (line : Line) :
    (s.process ch line).besidesOutput = (s.process dh line).besidesOutput := by
  cases hc : line.check with
  | ok k =>
    rw [process_of_check_ok s ch hc, process_of_check_ok s dh hc, carryOut_eq, carryOut_eq]
    simp only [Progress.besidesOutput, log, notices]
  | error r =>
    rw [process_of_check_error s ch hc, process_of_check_error s dh hc]
    unfold reject
    rw [log, notices]
    cases hr : (Log.add dh.log (.rejected r)).refusal with
    | none => simp only [hr, Progress.besidesOutput]
    | some cause => simp only [hr, Progress.besidesOutput]

theorem feed_besidesOutput (s : Interpreter) (log : ch.log = dh.log)
    (notices : ch.notices = dh.notices) {lines : List Line}
    (h : (s.feed ch lines).failure = none) (h' : (s.feed dh lines).failure = none) :
    (s.feed ch lines).besidesOutput = (s.feed dh lines).besidesOutput := by
  induction lines generalizing s ch dh with
  | nil => simp only [feed, Progress.besidesOutput, log, notices]
  | cons line lines ih =>
    have step := s.process_besidesOutput log notices line
    simp only [Progress.besidesOutput, Prod.mk.injEq] at step
    obtain ⟨interpreter, log', notices'⟩ := step
    -- The two outputs may differ, but no step fails on either.
    cases going : (s.process ch line).failure with
    | some e =>
      rw [feed] at h
      simp only [going] at h
      cases h
    | none =>
      cases going' : (s.process dh line).failure with
      | some e =>
        rw [feed] at h'
        simp only [going'] at h'
        cases h'
      | none =>
        rw [feed_cons_of_none s ch going] at h ⊢
        rw [feed_cons_of_none s dh going', ← interpreter] at h' ⊢
        exact ih _ log' notices' h h'

theorem run_besidesOutput (s : Interpreter) (ch : Channels σ) (lines : List Line) :
    (s.run ch lines).besidesOutput = (s.feed ch lines).besidesOutput := by
  obtain ⟨channels, interpreter⟩ := s.run_channels ch lines
  rw [Progress.besidesOutput, channels, interpreter]
  rfl

end Besides

/-- Only a picture can fail to be printed. -/
theorem check_of_process_failure (s : Interpreter) (ch : Channels σ) {line : Line} {e : IoError}
    (h : (s.process ch line).failure = some e) : line.check = .ok .print := by
  cases hc : line.check with
  | error r =>
    rw [process_of_check_error s ch hc, (reject_frame _ ch r).1] at h
    cases h
  | ok k =>
    rw [process_of_check_ok s ch hc, carryOut_eq] at h
    by_cases hk : k = .print
    · rw [hk]
    · simp only [Command.shown_of_ne_print hk, Output.write_empty] at h
      cases h

/-- The lines that a run takes up: all, or those up to the first that cannot be printed. -/
def handed (s : Interpreter) (ch : Channels σ) : List Line → List Line
  | [] => []
  | line :: lines =>
    let p := s.process ch line
    match p.failure with
    | none => line :: p.interpreter.handed p.channels lines
    | some _ => [line]

theorem feed_singleton (s : Interpreter) (ch : Channels σ) (line : Line) :
    s.feed ch [line] = s.process ch line := by
  rw [feed]
  cases h : (s.process ch line).failure with
  | none =>
    simp only [feed]
    rw [← h]
  | some e => rfl

theorem feed_concat (s : Interpreter) (ch : Channels σ) {before : List Line} (line : Line)
    (h : (s.feed ch before).failure = none) :
    s.feed ch (before ++ [line]) =
      (s.feed ch before).interpreter.process (s.feed ch before).channels line := by
  rw [feed_append, h]
  exact feed_singleton _ _ _

theorem handed_of_feed (s : Interpreter) (ch : Channels σ) {lines : List Line}
    (h : (s.feed ch lines).failure = none) : s.handed ch lines = lines := by
  induction lines generalizing s ch with
  | nil => rfl
  | cons line lines ih =>
    rw [feed] at h
    rw [handed]
    cases hp : (s.process ch line).failure with
    | none =>
      simp only [hp] at h ⊢
      rw [ih _ _ h]
    | some e =>
      simp only [hp] at h
      cases h

/-- Where lines are cut short there is a first that cannot be printed, and it is the last that
makes a difference. -/
theorem exists_cut (s : Interpreter) (ch : Channels σ) {lines : List Line} {e : IoError}
    (h : (s.feed ch lines).failure = some e) :
    ∃ before line after, lines = before ++ line :: after ∧ s.handed ch lines = before ++ [line] ∧
      (s.feed ch before).failure = none ∧ s.feed ch lines = s.feed ch (before ++ [line]) := by
  induction lines generalizing s ch with
  | nil => cases h
  | cons line lines ih =>
    cases hp : (s.process ch line).failure with
    | none =>
      have step : s.feed ch (line :: lines) = _ := feed_cons_of_none s ch hp
      rw [step] at h
      obtain ⟨before, last, after, cut, taken, going, same⟩ := ih _ _ h
      refine ⟨line :: before, last, after, by rw [cut]; rfl, ?_, ?_, ?_⟩
      · rw [handed]
        simp only [hp]
        rw [taken]
        rfl
      · rw [feed_cons_of_none s ch hp]
        exact going
      · rw [step, same, List.cons_append, feed_cons_of_none s ch hp]
    | some cause =>
      refine ⟨[], line, lines, rfl, ?_, rfl, ?_⟩
      · rw [handed]
        simp only [hp]
        rfl
      · rw [feed, List.nil_append, feed_singleton]
        simp only [hp]

end Interpreter

end PixelScript
