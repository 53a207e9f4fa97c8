import PixelScript.Interpreter.Cut
import PixelScript.Log

namespace PixelScript

/-- The counts after more lines. -/
def Tally.count (t : Tally) (lines : List Line) : Tally :=
  ⟨t.lines + lines.length, t.executed + (Line.commands lines).length,
    t.rejected + (Line.reports lines).length⟩

theorem Line.commands_append (as bs : List Line) :
    commands (as ++ bs) = commands as ++ commands bs :=
  List.filterMap_append

theorem Line.reports_append (as bs : List Line) : reports (as ++ bs) = reports as ++ reports bs :=
  List.filterMap_append

/-- A line is either accepted or rejected. -/
theorem Line.length_commands_reports (lines : List Line) :
    lines.length = (commands lines).length + (reports lines).length := by
  induction lines with
  | nil => rfl
  | cons line lines ih =>
    rw [List.length_cons, ih]
    cases hc : line.check with
    | ok k =>
      rw [commands_cons_of_ok hc, reports_cons_of_ok hc, List.length_cons]
      omega
    | error r =>
      rw [commands_cons_of_error hc, reports_cons_of_error hc, List.length_cons]
      omega

theorem Tally.count_append (t : Tally) (as bs : List Line) :
    t.count (as ++ bs) = (t.count as).count bs := by
  simp [count, Line.commands_append, Line.reports_append, Nat.add_assoc]

/-- The same channels with the log under watch. -/
def Channels.watch {σ : Type} (ch : Channels σ) (seen : List (Entry × Option IoError)) :
    Channels (WatchedLog σ) :=
  ⟨⟨ch.log, seen⟩, ch.output, ch.notices⟩

def Channels.unwatch {σ : Type} (ch : Channels (WatchedLog σ)) : Channels σ :=
  ⟨ch.log.inner, ch.output, ch.notices⟩

def Progress.unwatch {σ : Type} (p : Progress (WatchedLog σ)) : Progress σ :=
  ⟨p.interpreter, p.channels.unwatch, p.failure⟩

namespace Interpreter

variable {σ : Type} [Log σ]

theorem process_tally (s : Interpreter) (ch : Channels σ) (line : Line) :
    (s.process ch line).interpreter.tally = s.tally.count [line] := by
  cases hc : line.check with
  | ok k =>
    rw [process_of_check_ok s ch hc, carryOut_eq, Tally.count, Line.commands_cons_of_ok hc,
      Line.reports_cons_of_ok hc]
    rfl
  | error r =>
    rw [process_of_check_error s ch hc, (reject_frame _ ch r).2.2.1, Tally.count,
      Line.commands_cons_of_error hc, Line.reports_cons_of_error hc]
    rfl

/-- Every line taken up is counted once, also the one that cannot be printed. -/
theorem feed_tally (s : Interpreter) (ch : Channels σ) (lines : List Line) :
    (s.feed ch lines).interpreter.tally = s.tally.count (s.handed ch lines) := by
  induction lines generalizing s ch with
  | nil => rfl
  | cons line lines ih =>
    cases hp : (s.process ch line).failure with
    | none =>
      rw [feed_cons_of_none s ch hp, ih, process_tally, ← Tally.count_append, handed]
      simp only [hp]
      rfl
    | some e =>
      rw [feed, handed]
      simp only [hp]
      exact s.process_tally ch line

/-- A report that the log refuses is counted, and seen all the same. -/
theorem reject_seen (s : Interpreter) (ch : Channels (WatchedLog σ)) (r : Report) :
    (s.reject ch r).unwatch = s.reject ch.unwatch r ∧
      ∃ refusal, (s.reject ch r).channels.log.seen = ch.log.seen ++ [(.rejected r, refusal)] ∧
        (s.reject ch r).interpreter.unlogged = s.unlogged + if refusal.isSome then 1 else 0 := by
  unfold reject
  cases h : (Log.add ch.log.inner (.rejected r)).refusal with
  | none =>
    have watched : (Log.add ch.log (.rejected r)).refusal = none := h
    have plain : (Log.add ch.unwatch.log (.rejected r)).refusal = none := h
    simp only [watched, plain]
    exact ⟨rfl, none, by rw [← h]; rfl, rfl⟩
  | some cause =>
    have watched : (Log.add ch.log (.rejected r)).refusal = some cause := h
    have plain : (Log.add ch.unwatch.log (.rejected r)).refusal = some cause := h
    simp only [watched, plain]
    exact ⟨rfl, some cause, by rw [← h]; rfl, rfl⟩

/-- Watching a log changes nothing, and shows every report, with those that were refused. -/
theorem process_seen (s : Interpreter) (ch : Channels (WatchedLog σ)) (line : Line) :
    (s.process ch line).unwatch = s.process ch.unwatch line ∧
      ∃ new, (s.process ch line).channels.log.seen = ch.log.seen ++ new ∧
        new.map Prod.fst = (Line.reports [line]).map .rejected ∧
        (s.process ch line).interpreter.unlogged =
          s.unlogged + new.countP fun entry => entry.2.isSome := by
  cases hc : line.check with
  | ok k =>
    rw [process_of_check_ok s ch hc, process_of_check_ok s ch.unwatch hc, carryOut_eq,
      carryOut_eq, Line.reports_cons_of_ok hc]
    exact ⟨rfl, [], by simp, rfl, rfl⟩
  | error r =>
    rw [process_of_check_error s ch hc, process_of_check_error s ch.unwatch hc,
      Line.reports_cons_of_error hc]
    obtain ⟨plain, refusal, seen, unlogged⟩ := reject_seen { s with tally := s.tally.refuse } ch r
    refine ⟨plain, [(.rejected r, refusal)], seen, rfl, ?_⟩
    rw [unlogged]
    simp [List.countP_singleton]

theorem feed_seen (s : Interpreter) (ch : Channels (WatchedLog σ)) (lines : List Line) :
    (s.feed ch lines).unwatch = s.feed ch.unwatch lines ∧
      s.handed ch lines = s.handed ch.unwatch lines ∧
      ∃ new, (s.feed ch lines).channels.log.seen = ch.log.seen ++ new ∧
        new.map Prod.fst = (Line.reports (s.handed ch lines)).map .rejected ∧
        (s.feed ch lines).interpreter.unlogged =
          s.unlogged + new.countP fun entry => entry.2.isSome := by
  induction lines generalizing s ch with
  | nil => exact ⟨rfl, rfl, [], by simp [feed], rfl, rfl⟩
  | cons line lines ih =>
    obtain ⟨plain, first, seen, entries, unlogged⟩ := s.process_seen ch line
    have failure : (s.process ch.unwatch line).failure = (s.process ch line).failure := by
      rw [← plain]
      rfl
    cases hp : (s.process ch line).failure with
    | none =>
      obtain ⟨plains, taken, rest, seens, more, lost⟩ :=
        ih (s.process ch line).interpreter (s.process ch line).channels
      rw [hp] at failure
      rw [feed_cons_of_none s ch hp, feed_cons_of_none s ch.unwatch failure, handed, handed]
      simp only [hp, failure]
      rw [← plain]
      refine ⟨plains, congrArg (line :: ·) taken, first ++ rest, ?_, ?_, ?_⟩
      · rw [seens, seen, List.append_assoc]
      · rw [List.map_append, entries, more, ← List.map_append, ← Line.reports_append]
        rfl
      · rw [lost, unlogged, List.countP_append, Nat.add_assoc]
    | some e =>
      rw [hp] at failure
      rw [feed, feed, handed, handed]
      simp only [hp, failure]
      exact ⟨plain, trivial, first, seen, entries, unlogged⟩

theorem process_log (s : Interpreter) (ch : Channels σ) (line : Line) :
    (s.process ch line).channels.log =
      Log.addAll ch.log ((Line.reports [line]).map .rejected) := by
  cases hc : line.check with
  | ok k =>
    rw [process_of_check_ok s ch hc, carryOut_eq, Line.reports_cons_of_ok hc]
    rfl
  | error r =>
    rw [process_of_check_error s ch hc, (reject_frame _ ch r).2.2.2.2,
      Line.reports_cons_of_error hc]
    rfl

/-- The log gets the reports of the lines taken up, and nothing else. -/
theorem feed_log (s : Interpreter) (ch : Channels σ) (lines : List Line) :
    (s.feed ch lines).channels.log =
      Log.addAll ch.log ((Line.reports (s.handed ch lines)).map .rejected) := by
  induction lines generalizing s ch with
  | nil => rfl
  | cons line lines ih =>
    cases hp : (s.process ch line).failure with
    | none =>
      rw [feed_cons_of_none s ch hp, ih, process_log, ← Log.addAll_append, ← List.map_append,
        ← Line.reports_append, handed]
      simp only [hp]
      rfl
    | some e =>
      rw [feed, handed]
      simp only [hp]
      exact s.process_log ch line

theorem run_unwatch (s : Interpreter) (ch : Channels (WatchedLog σ)) (lines : List Line) :
    (s.run ch lines).unwatch = s.run ch.unwatch lines := by
  have plain := (s.feed_seen ch lines).1
  unfold run
  rw [← plain]
  cases h : (s.feed ch lines).failure with
  | none =>
    have h' : (s.feed ch lines).unwatch.failure = none := h
    simp only [h, h']
    rfl
  | some e =>
    have h' : (s.feed ch lines).unwatch.failure = some e := h
    simp only [h, h']

end Interpreter

/-- A use of an interpreter: a line, or a run of lines, with any log and any output. -/
inductive Call : Type 1 where
  | process {σ : Type} [Log σ] (ch : Channels σ) (line : Line)
  | run {σ : Type} [Log σ] (ch : Channels σ) (lines : List Line)

/-- What has come of some calls: the interpreter, the lines that it took up, and the reports that
the logs were handed, each with the error that lost it, if any. -/
structure History where
  interpreter : Interpreter
  handed : List Line
  recorded : List (Entry × Option IoError)

namespace History

def start : History := ⟨.start, [], []⟩

/-- The log of a call is watched to see what it is handed; the interpreter does not notice. -/
def after (h : History) : Call → History
  | @Call.process _ _ ch line =>
    ⟨(h.interpreter.process ch line).interpreter, h.handed ++ [line],
      (h.interpreter.process (ch.watch h.recorded) line).channels.log.seen⟩
  | @Call.run _ _ ch lines =>
    ⟨(h.interpreter.run ch lines).interpreter, h.handed ++ h.interpreter.handed ch lines,
      (h.interpreter.run (ch.watch h.recorded) lines).channels.log.seen⟩

def ofCalls (calls : List Call) : History := calls.foldl after start

/-- The entries that the logs took. -/
def logged (h : History) : List Entry :=
  (h.recorded.filter fun entry => entry.2.isNone).map Prod.fst

/-- The books of an interpreter agree with its history. -/
structure Balanced (h : History) : Prop where
  tally : h.interpreter.tally = Interpreter.start.tally.count h.handed
  entries : h.recorded.map Prod.fst = (Line.reports h.handed).map .rejected
  unlogged : h.interpreter.unlogged = h.recorded.countP fun entry => entry.2.isSome

/-- An entry is either taken or refused. -/
theorem length_logged (h : History) :
    h.logged.length + (h.recorded.countP fun entry => entry.2.isSome) = h.recorded.length := by
  have parts := h.recorded.length_eq_countP_add_countP fun entry => entry.2.isSome
  have taken : (fun entry : Entry × Option IoError => decide ¬entry.2.isSome = true) =
      fun entry => entry.2.isNone := by
    funext entry
    cases entry.2 <;> rfl
  rw [taken, Nat.add_comm] at parts
  rw [logged, List.length_map, ← List.countP_eq_length_filter, parts]

theorem Balanced.rejected {h : History} (hb : h.Balanced) :
    h.interpreter.tally.rejected = h.recorded.length := by
  have entries := congrArg List.length hb.entries
  rw [List.length_map, List.length_map] at entries
  rw [hb.tally, entries]
  exact Nat.zero_add _

theorem Balanced.lines {h : History} (hb : h.Balanced) :
    h.interpreter.tally.lines =
      h.interpreter.tally.executed + h.interpreter.tally.rejected := by
  have all := Line.length_commands_reports h.handed
  rw [hb.tally]
  simp only [Tally.count, Interpreter.start]
  omega

theorem start_balanced : start.Balanced := ⟨rfl, rfl, rfl⟩

/-- Books stay balanced if some lines are counted and their reports recorded. -/
theorem Balanced.add {h : History} (hb : h.Balanced) {s : Interpreter} {lines : List Line}
    {new : List (Entry × Option IoError)} (tally : s.tally = h.interpreter.tally.count lines)
    (entries : new.map Prod.fst = (Line.reports lines).map .rejected)
    (unlogged : s.unlogged = h.interpreter.unlogged + new.countP fun entry => entry.2.isSome) :
    Balanced ⟨s, h.handed ++ lines, h.recorded ++ new⟩ := by
  refine ⟨?_, ?_, ?_⟩
  · change s.tally = _
    rw [tally, hb.tally, Tally.count_append]
  · change (h.recorded ++ new).map Prod.fst = _
    rw [List.map_append, hb.entries, entries, Line.reports_append, List.map_append]
  · change s.unlogged = _
    rw [unlogged, hb.unlogged, List.countP_append]

theorem after_balanced {h : History} (hb : h.Balanced) (call : Call) :
    (h.after call).Balanced := by
  cases call with
  | @process σ _ ch line =>
    obtain ⟨plain, new, seen, entries, unlogged⟩ :=
      h.interpreter.process_seen (ch.watch h.recorded) line
    have same : h.interpreter.process ch line = _ := plain.symm
    have step := hb.add (h.interpreter.process_tally ch line) entries (by rw [same]; exact unlogged)
    rw [after, seen]
    exact step
  | @run σ _ ch lines =>
    obtain ⟨plain, taken, new, seen, entries, unlogged⟩ :=
      h.interpreter.feed_seen (ch.watch h.recorded) lines
    have same : h.interpreter.feed ch lines = _ := plain.symm
    have taken : h.interpreter.handed ch lines = _ := taken.symm
    rw [← taken] at entries
    have step := hb.add (h.interpreter.feed_tally ch lines) entries (by rw [same]; exact unlogged)
    rw [after, (h.interpreter.run_channels ch lines).2,
      (h.interpreter.run_channels (ch.watch h.recorded) lines).1, seen]
    exact step

theorem foldl_balanced {h : History} (hb : h.Balanced) (calls : List Call) :
    (calls.foldl after h).Balanced := by
  induction calls generalizing h with
  | nil => exact hb
  | cons call calls ih => exact ih (after_balanced hb call)

end History

end PixelScript
