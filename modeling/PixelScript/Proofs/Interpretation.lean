import PixelScript.Interpreter.Accounts
import PixelScript.Interpreter.Cut
import PixelScript.Log

namespace PixelScript

namespace Interpreter

variable {σ : Type} [Log σ]

/-- What lines would print if the output took everything. -/
def shownBy (s : Interpreter) (lines : List Line) : ByteArray :=
  (String.join (Command.texts s.canvas (Line.commands lines))).toUTF8

theorem feed_bytes (s : Interpreter) (ch : Channels σ) (lines : List Line) :
    (s.feed ch lines).channels.output.bytes =
      ch.output.bytes ++ ch.output.keeps (s.shownBy lines) := by
  rw [(s.feed_commands ch lines).1, Output.writeAll_bytes]
  rfl

theorem feed_failure_eq_none_iff (s : Interpreter) (ch : Channels σ) (lines : List Line) :
    (s.feed ch lines).failure = none ↔ ch.output.Admits (s.shownBy lines).size := by
  rw [(s.feed_commands ch lines).2.1, Output.writeAll_failure_eq_none_iff]
  rfl

theorem feed_failure_of_not_admits {s : Interpreter} {ch : Channels σ} {lines : List Line}
    (h : ¬ch.output.Admits (s.shownBy lines).size) :
    (s.feed ch lines).failure = some ch.output.full := by
  rw [(s.feed_commands ch lines).2.1]
  exact Output.writeAll_of_not_admits h

theorem run_bytes (s : Interpreter) (ch : Channels σ) (lines : List Line) :
    (s.run ch lines).channels.output.bytes =
      ch.output.bytes ++ ch.output.keeps (s.shownBy lines) := by
  rw [(s.run_channels ch lines).1, feed_bytes]

/-- Two outputs with room for all leave the same behind. -/
theorem run_besidesOutput_of_admits (s : Interpreter) {ch dh : Channels σ}
    (log : ch.log = dh.log) (notices : ch.notices = dh.notices) {lines : List Line}
    (h : ch.output.Admits (s.shownBy lines).size) (h' : dh.output.Admits (s.shownBy lines).size) :
    (s.run ch lines).besidesOutput = (s.run dh lines).besidesOutput := by
  have going := (s.feed_failure_eq_none_iff ch lines).mpr h
  have going' := (s.feed_failure_eq_none_iff dh lines).mpr h'
  rw [run_besidesOutput, run_besidesOutput]
  exact s.feed_besidesOutput log notices going going'

theorem run_failure_of_admits {s : Interpreter} {ch : Channels σ} {lines : List Line}
    (h : ch.output.Admits (s.shownBy lines).size) :
    (s.run ch lines).failure = ch.output.unflushed := by
  rw [run_failure, (s.feed_failure_eq_none_iff ch lines).mpr h, Option.none_or]

theorem run_failure_of_not_admits {s : Interpreter} {ch : Channels σ} {lines : List Line}
    (h : ¬ch.output.Admits (s.shownBy lines).size) :
    (s.run ch lines).failure = some ch.output.full := by
  rw [run_failure, feed_failure_of_not_admits h, Option.some_or]

/-- Where lines are cut short, the state left behind is that of a prefix whose last line is a
picture, and the prefix without that line could be printed. -/
theorem exists_picture_cut (s : Interpreter) {ch dh : Channels σ} (log : ch.log = dh.log)
    (notices : ch.notices = dh.notices) (ho : dh.output.Endless) {lines : List Line}
    {e : IoError} (h : (s.feed ch lines).failure = some e) :
    ∃ before line after, lines = before ++ line :: after ∧ line.check = .ok .print ∧
      (s.feed ch before).failure = none ∧ (s.feed ch (before ++ [line])).failure = some e ∧
      (s.feed ch lines).besidesOutput = (s.feed dh (before ++ [line])).besidesOutput := by
  obtain ⟨before, line, after, cut, _, going, same⟩ := s.exists_cut ch h
  have going' := (s.feed_endless ho before).1
  rw [same, feed_concat s ch line going] at h
  refine ⟨before, line, after, cut, check_of_process_failure _ _ h, going, ?_, ?_⟩
  · rw [feed_concat s ch line going, h]
  · have reached := s.feed_besidesOutput log notices going going'
    simp only [Progress.besidesOutput, Prod.mk.injEq] at reached
    obtain ⟨interpreter, log', notices'⟩ := reached
    rw [same, feed_concat s ch line going, feed_concat s dh line going', interpreter]
    exact process_besidesOutput _ log' notices' line

theorem feed_unlimited_bytes (s : Interpreter) (log : σ) (notices : List String)
    (lines : List Line) :
    (s.feed ⟨log, .unlimited, notices⟩ lines).channels.output.bytes = s.shownBy lines := by
  rw [feed_bytes]
  exact ByteArray.empty_append

/-- The first picture that does not fit ends a run, as if there were no lines after it. -/
theorem exists_picture_beyond (s : Interpreter) (log : σ) (notices : List String)
    {lines : List Line} {room : Nat} (cause : IoError) (beyond : room < (s.shownBy lines).size) :
    ∃ before line after, lines = before ++ line :: after ∧ line.check = .ok .print ∧
      let reached := s.feed ⟨log, .unlimited, notices⟩ before
      let stopped := s.feed ⟨log, .unlimited, notices⟩ (before ++ [line])
      stopped.channels.output =
        reached.channels.output.add (Command.print.execute reached.interpreter.canvas).1.shown ∧
      reached.channels.output.bytes.size ≤ room ∧ room < stopped.channels.output.bytes.size ∧
      (s.run ⟨log, .limited room cause, notices⟩ lines).besidesOutput = stopped.besidesOutput := by
  let wide : Channels σ := ⟨log, .unlimited, notices⟩
  let narrow : Channels σ := ⟨log, .limited room cause, notices⟩
  have endless : wide.output.Endless := ⟨rfl, rfl⟩
  have ends_iff (ls : List Line) :
      (s.feed narrow ls).failure = none ↔ (s.shownBy ls).size ≤ room := by
    rw [feed_failure_eq_none_iff]
    exact Output.admits_limited_iff
  have failed : (s.feed narrow lines).failure = some cause :=
    feed_failure_of_not_admits (Nat.not_le_of_lt beyond ∘ Output.admits_limited_iff.mp)
  obtain ⟨before, line, after, parts, asked, going, stopped, state⟩ :=
    @exists_picture_cut _ _ s narrow wide rfl rfl endless _ _ failed
  refine ⟨before, line, after, parts, asked, ?_, ?_, ?_, ?_⟩
  · have way := (s.feed_endless endless before).1
    rw [feed_concat s wide line way, process_of_check_ok _ _ asked,
      carryOut_endless _ (s.feed_endless endless before).2.1]
  · rw [feed_unlimited_bytes, ← ends_iff]
    exact going
  · rw [feed_unlimited_bytes]
    apply Nat.lt_of_not_le
    rw [← ends_iff, stopped]
    simp
  · rw [← state]
    exact s.run_besidesOutput narrow lines

/-- A failure to flush changes nothing but the result. -/
theorem run_unflushed (s : Interpreter) (log : σ) (notices : List String) {lines : List Line}
    {o : Output} {broken : IoError} (fresh : o.bytes = .empty)
    (fits : o.Admits (s.shownBy lines).size) (unflushed : o.unflushed = some broken) :
    let p := s.run ⟨log, o, notices⟩ lines
    p.result = .error (.io broken) ∧ p.channels.output.bytes = s.shownBy lines ∧
      p.besidesOutput = (s.run ⟨log, .unlimited, notices⟩ lines).besidesOutput := by
  intro p
  refine ⟨?_, ?_, ?_⟩
  · have failed : p.failure = some broken := by
      rw [← unflushed]
      exact run_failure_of_admits fits
    rw [Progress.result, failed]
  · have kept : p.channels.output.bytes = o.bytes ++ o.keeps (s.shownBy lines) :=
      s.run_bytes ⟨log, o, notices⟩ lines
    rw [kept, fresh, Output.keeps_of_admits fits, ByteArray.empty_append]
  · exact @run_besidesOutput_of_admits _ _ s ⟨log, o, notices⟩ ⟨log, .unlimited, notices⟩ rfl rfl
      _ fits (Output.admits_unlimited _)

/-- An output with room for so many bytes ends a run at an exact byte, as if there were no lines
after the first picture that does not fit. A failure to flush alone changes only the result. -/
theorem run_limited (s : Interpreter) (log : σ) (notices : List String) (lines : List Line)
    (room : Nat) (cause : IoError) :
    let complete := s.run ⟨log, .unlimited, notices⟩ lines
    let full := complete.channels.output.bytes
    let cut := s.run ⟨log, .limited room cause, notices⟩ lines
    complete.result = .ok complete.interpreter.tally ∧
    cut.channels.output.bytes = full.extract 0 (min room full.size) ∧
    cut.result = (if full.size ≤ room then complete.result else .error (.io cause)) ∧
    (full.size ≤ room → cut.besidesOutput = complete.besidesOutput) ∧
    (room < full.size → ∃ before line after, lines = before ++ line :: after ∧
      line.check = .ok .print ∧
      let reached := s.feed ⟨log, .unlimited, notices⟩ before
      let stopped := s.feed ⟨log, .unlimited, notices⟩ (before ++ [line])
      stopped.channels.output =
        reached.channels.output.add (Command.print.execute reached.interpreter.canvas).1.shown ∧
      reached.channels.output.bytes.size ≤ room ∧ room < stopped.channels.output.bytes.size ∧
      cut.besidesOutput = stopped.besidesOutput) ∧
    ∀ (o : Output) (broken : IoError), o.bytes = .empty → o.Admits full.size →
      o.unflushed = some broken →
      let unflushed := s.run ⟨log, o, notices⟩ lines
      unflushed.result = .error (.io broken) ∧ unflushed.channels.output.bytes = full ∧
        unflushed.besidesOutput = complete.besidesOutput := by
  intro complete full cut
  have hfull : full = s.shownBy lines := by
    rw [← s.feed_unlimited_bytes log notices, ← (s.run_channels _ lines).1]
  have ended : complete.result = .ok complete.interpreter.tally := by
    have going : complete.failure = none := run_failure_of_admits (Output.admits_unlimited _)
    rw [Progress.result, going]
  have fits_iff : (Output.limited room cause).Admits (s.shownBy lines).size ↔
      (s.shownBy lines).size ≤ room := Output.admits_limited_iff
  rw [hfull]
  have same : (s.shownBy lines).size ≤ room → cut.besidesOutput = complete.besidesOutput := by
    intro h
    exact @run_besidesOutput_of_admits _ _ s ⟨log, .limited room cause, notices⟩
      ⟨log, .unlimited, notices⟩ rfl rfl _ (fits_iff.mpr h) (Output.admits_unlimited _)
  refine ⟨ended, ?_, ?_, same, s.exists_picture_beyond log notices cause, ?_⟩
  · have kept : cut.channels.output.bytes =
        .empty ++ (Output.limited room cause).keeps (s.shownBy lines) :=
      s.run_bytes ⟨log, .limited room cause, notices⟩ lines
    rw [kept, ByteArray.empty_append]
    exact Output.keeps_limited room cause _
  · split
    · next h =>
      have going : cut.failure = none := run_failure_of_admits (fits_iff.mpr h)
      have state := same h
      simp only [Progress.besidesOutput, Prod.mk.injEq] at state
      rw [ended, Progress.result, going, state.1]
    · next h =>
      have failed : cut.failure = some cause := run_failure_of_not_admits (h ∘ fits_iff.mp)
      rw [Progress.result, failed]
  · intro o broken fresh fits unflushed
    exact s.run_unflushed log notices fresh fits unflushed

/-- There is room for the first picture, and for the second without its line break. -/
theorem run_limited_line_break :
    let lines : List Line :=
      [⟨1, "I", ["1", "1"]⟩, ⟨2, "X", []⟩, ⟨3, "S", []⟩, ⟨4, "S", []⟩, ⟨5, "C", []⟩]
    let complete := start.run ⟨Journal.empty, .unlimited, []⟩ lines
    let cut := start.run ⟨Journal.empty, .limited 3 .noSpace, []⟩ lines
    let full := complete.channels.output.bytes
    full.size = 4 ∧ cut.channels.output.bytes = full.extract 0 3 ∧
    cut.result = .error (.io .noSpace) ∧ cut.interpreter.tally = ⟨4, 3, 1⟩ ∧
    ∃ before line after, lines = before ++ line :: after ∧ line.check = .ok .print ∧
      cut.besidesOutput =
        (start.feed ⟨Journal.empty, .unlimited, []⟩ (before ++ [line])).besidesOutput := by
  intro lines complete cut full
  have size : full.size = 4 := by decide +kernel
  obtain ⟨_, bytes, result, _, stops, _⟩ := run_limited start Journal.empty [] lines 3 .noSpace
  have beyond : 3 < full.size := by
    rw [size]
    decide
  obtain ⟨before, line, after, parts, asked, _, _, _, state⟩ := stops beyond
  refine ⟨size, ?_, ?_, by decide +kernel, before, line, after, parts, asked, state⟩
  · rw [size] at bytes
    exact bytes
  · rw [if_neg (Nat.not_le_of_lt beyond)] at result
    exact result

end Interpreter

namespace Interpreter

/-- Rejected lines and lost reports leave no trace in the picture: runs whose lines are accepted as
the same commands write the same bytes and end on the same canvas, with logs of any two kinds. -/
theorem run_of_commands_eq {σ τ : Type} [Log σ] [Log τ] {s t : Interpreter} {ch : Channels σ}
    {dh : Channels τ} {as bs : List Line} (canvas : s.canvas = t.canvas)
    (outputs : ch.output.Alike dh.output) (commands : Line.commands as = Line.commands bs) :
    (∃ written, (s.run ch as).channels.output.bytes = ch.output.bytes ++ written ∧
      (t.run dh bs).channels.output.bytes = dh.output.bytes ++ written) ∧
    (s.run ch as).failure = (t.run dh bs).failure ∧
    (∃ carriedOut, (s.run ch as).interpreter.tally.executed = s.tally.executed + carriedOut ∧
      (t.run dh bs).interpreter.tally.executed = t.tally.executed + carriedOut ∧
      carriedOut = (Line.commands (s.handed ch as)).length ∧
      carriedOut = (Line.commands (t.handed dh bs)).length) ∧
    (s.run ch as).interpreter.canvas = (t.run dh bs).interpreter.canvas := by
  have left := s.feed_commands ch as
  have right := t.feed_commands dh bs
  -- Both runs now write the same texts, those of the commands of `bs` from the canvas of `t`.
  rw [canvas, commands] at left
  obtain ⟨leftOutput, leftFailure, leftExecuted, leftCanvas⟩ := left
  obtain ⟨rightOutput, rightFailure, rightExecuted, rightCanvas⟩ := right
  rw [(s.run_channels ch as).1, (s.run_channels ch as).2, (t.run_channels dh bs).1,
    (t.run_channels dh bs).2, run_failure, run_failure]
  refine ⟨?_, ?_, ?_, ?_⟩
  · refine ⟨ch.output.keeps (String.join (Command.texts t.canvas (Line.commands bs))).toUTF8,
      ?_, ?_⟩
    · rw [leftOutput, Output.writeAll_bytes]
    · rw [rightOutput, Output.writeAll_bytes, outputs.keeps]
  · rw [leftFailure, rightFailure, outputs.failure, outputs.unflushed]
  · refine ⟨(ch.output.writeAll (Command.texts t.canvas (Line.commands bs))).tried,
      leftExecuted, ?_, ?_, ?_⟩
    · rw [rightExecuted, outputs.tried]
    · have counted := congrArg Tally.executed (s.feed_tally ch as)
      rw [leftExecuted, Tally.count] at counted
      exact Nat.add_left_cancel counted
    · have counted := congrArg Tally.executed (t.feed_tally dh bs)
      rw [rightExecuted, ← outputs.tried, Tally.count] at counted
      exact Nat.add_left_cancel counted
  · rw [leftCanvas, rightCanvas, outputs.tried]

/-- The second script has two bad lines, which its log loses. The second picture of each script is
cut after its first byte. -/
theorem run_of_commands_eq_lost_reports :
    let as : List Line := [⟨1, "I", ["1", "1"]⟩, ⟨2, "S", []⟩, ⟨3, "S", []⟩, ⟨4, "C", []⟩]
    let bs : List Line := [⟨7, "", []⟩, ⟨7, "I", ["01", "+1"]⟩, ⟨9, "S", []⟩, ⟨1, "L", ["1"]⟩,
      ⟨0, "S", []⟩, ⟨2, "C", []⟩]
    let output := Output.limited 3 .noSpace
    let broken : GuardedLog Journal := ⟨.empty, some .nameTooLong⟩
    let left := start.run ⟨Journal.empty, output, []⟩ as
    let right := start.run ⟨broken, output, []⟩ bs
    Line.commands as = Line.commands bs ∧ right.interpreter.unlogged = 2 ∧
    (∃ written, left.channels.output.bytes = .empty ++ written ∧
      right.channels.output.bytes = .empty ++ written) ∧
    left.failure = some .noSpace ∧ right.failure = some .noSpace ∧
    left.interpreter.canvas = right.interpreter.canvas := by
  intro as bs output broken left right
  have commands : Line.commands as = Line.commands bs := by decide +kernel
  have alike : output.Alike output := ⟨rfl, rfl, rfl⟩
  have cut : left.failure = some .noSpace := by decide +kernel
  obtain ⟨written, ended, _, canvas⟩ :=
    @run_of_commands_eq _ _ _ _ start start ⟨Journal.empty, output, []⟩ ⟨broken, output, []⟩ _ _
      rfl alike commands
  exact ⟨commands, by decide +kernel, written, cut, by rw [← cut]; exact ended.symm, canvas⟩

end Interpreter

namespace History

/-- The books of an interpreter balance after any calls: every line taken up is counted once, and
every report of a rejected line is logged or counted as lost. -/
theorem ofCalls_accounts (calls : List Call) :
    let h := ofCalls calls
    let s := h.interpreter
    s.tally.lines = h.handed.length ∧ s.tally.lines = s.tally.executed + s.tally.rejected ∧
    s.unlogged = (h.recorded.filter fun entry => entry.2.isSome).length ∧
    s.unlogged ≤ s.tally.rejected ∧
    h.recorded.map Prod.fst = (Line.reports h.handed).map .rejected ∧
    h.logged.length + s.unlogged = s.tally.rejected ∧
    ∀ (σ : Type) [Log σ] (ch : Channels σ) (lines : List Line),
      (∀ line, (s.process (ch.watch h.recorded) line).unwatch = s.process ch line) ∧
      (s.run (ch.watch h.recorded) lines).unwatch = s.run ch lines ∧
      (∀ tally, (s.run ch lines).result = .ok tally →
        tally = Interpreter.start.tally.count (h.handed ++ lines)) ∧
      ((s.feed ch lines).failure = none → s.handed ch lines = lines) ∧
      (∀ e, (s.feed ch lines).failure = some e →
        ∃ before line after, lines = before ++ line :: after ∧
          s.handed ch lines = before ++ [line] ∧ (s.feed ch before).failure = none ∧
          (s.feed ch (before ++ [line])).failure = some e) := by
  intro h s
  have balanced : h.Balanced := foldl_balanced start_balanced calls
  have refused : s.unlogged = (h.recorded.filter fun entry => entry.2.isSome).length := by
    rw [balanced.unlogged, List.countP_eq_length_filter]
  have split : h.logged.length + s.unlogged = s.tally.rejected := by
    rw [balanced.unlogged, balanced.rejected, length_logged]
  refine ⟨?_, balanced.lines, refused, ?_, balanced.entries, split, ?_⟩
  · rw [balanced.tally]
    exact Nat.zero_add _
  · rw [← split]
    exact Nat.le_add_left _ _
  intro σ _ ch lines
  refine ⟨fun line => (s.process_seen _ line).1, s.run_unwatch _ lines, ?_,
    s.handed_of_feed ch, ?_⟩
  · intro tally returned
    obtain ⟨ended, total⟩ := Progress.result_eq_ok_iff.mp returned
    rw [Interpreter.run_failure, Option.or_eq_none_iff] at ended
    rw [← total, (s.run_channels ch lines).2, s.feed_tally, s.handed_of_feed ch ended.1,
      balanced.tally, Tally.count_append]
  · intro e failed
    obtain ⟨before, line, after, parts, taken, going, same⟩ := s.exists_cut ch failed
    exact ⟨before, line, after, parts, taken, going, by rw [← same, failed]⟩

end History

end PixelScript
