import PixelScript.Canvas.Picture
import PixelScript.Command.Sequence
import PixelScript.Interpreter.Accounts
import PixelScript.Line.Rejected
import PixelScript.Text.Blank

namespace PixelScript

/-- A canvas on which all colors are of one kind. -/
structure Canvas.Colored (P : Color → Prop) (c : Canvas) : Prop where
  wellFormed : c.WellFormed
  colors : ∀ col row color, c.get? col row = some color → P color

namespace Canvas.Colored

variable {P : Color → Prop} {c : Canvas}

theorem of_mem_rows (h : c.Colored P) {row : List Color} (hr : row ∈ c.rows) :
    ∀ color ∈ row, P color := by
  intro color hcolor
  obtain ⟨r, found⟩ := List.getElem?_of_mem hr
  have high : r < c.height := by
    rw [← length_rows h.wellFormed]
    exact List.getElem?_eq_some_iff.mp found |>.1
  obtain ⟨row', found', cells⟩ := exists_row h.wellFormed high
  rw [found] at found'
  cases found'
  have listed := List.mem_map_of_mem (f := some) hcolor
  rw [cells] at listed
  obtain ⟨col, _, cell⟩ := List.mem_map.mp listed
  exact h.colors col r color cell

/-- No line of a picture has a blank in it, if no color has. -/
theorem unbroken_picture (h : c.Colored fun color => Text.Unbroken color.token) :
    ∀ line ∈ c.picture, Text.Unbroken line := by
  intro line hl ch hch
  obtain ⟨row, hr, rfl⟩ := List.mem_map.mp hl
  obtain ⟨color, hcolor, within⟩ := mem_rowText hch
  exact h.of_mem_rows hr color hcolor ch within

end Canvas.Colored

namespace Command

variable {P : Color → Prop}

/-- A cell has the color of nothing or of the command, or keeps the one that it has. -/
theorem execute_colored (blank : P Color.blank) {k : Command} (hk : ∀ color ∈ k.color?, P color)
    {canvas : Option Canvas} (hc : ∀ b, canvas = some b → b.Colored P) {c : Canvas}
    (h : (k.execute canvas).2 = some c) : c.Colored P := by
  by_cases ho : k.Opens
  · obtain ⟨height, width, d, _, hd, _, _, he⟩ := execute_of_opens ho canvas
    rw [he] at h
    cases h
    refine ⟨Canvas.create_wellFormed hd, ?_⟩
    intro col row color found
    rw [Canvas.get?_create hd, Option.ite_none_right_eq_some] at found
    cases found.2
    exact blank
  · cases canvas with
    | none =>
      rw [execute_none_of_not_opens ho] at h
      cases h
    | some b =>
      have colored := hc b rfl
      obtain ⟨d, hd, wf, width, height, cells⟩ := execute_of_not_opens colored.wellFormed ho
      rw [hd] at h
      cases h
      refine ⟨wf, ?_⟩
      intro col row color found
      have holds : b.Holds col row := by
        have here := (Canvas.isSome_get? wf).mp (Option.isSome_iff_exists.mpr ⟨color, found⟩)
        simpa only [Canvas.Holds, width, height] using here
      rw [cells col row holds] at found
      split at found
      · cases found
        exact blank
      · split at found
        · exact hk color found
        · exact colored.colors col row color found

theorem canvasAfter_colored (blank : P Color.blank) {ks : List Command}
    (hk : ∀ k ∈ ks, ∀ color ∈ k.color?, P color) {canvas : Option Canvas}
    (hc : ∀ b, canvas = some b → b.Colored P) {c : Canvas} (h : canvasAfter canvas ks = some c) :
    c.Colored P := by
  induction ks generalizing canvas with
  | nil => exact hc c h
  | cons k ks ih =>
    apply ih (fun j hj => hk j (List.mem_cons_of_mem k hj)) _ h
    intro b hb
    exact execute_colored blank (hk k List.mem_cons_self) hc hb

end Command

/-- The lines that a call hands over. -/
def Call.lines : Call → List Line
  | @Call.process _ _ _ line => [line]
  | @Call.run _ _ _ lines => lines

/-- No blank can get onto a canvas. -/
def Interpreter.Unbroken (s : Interpreter) : Prop :=
  ∀ c, s.canvas = some c → c.Colored fun color => Text.Unbroken color.token

namespace Interpreter

variable {σ : Type} [Log σ] {s : Interpreter}

theorem start_unbroken : start.Unbroken := by
  intro c hc
  cases hc

theorem feed_unbroken (hs : s.Unbroken) (ch : Channels σ) {lines : List Line}
    (hl : ∀ line ∈ lines, line.IsRead) : (s.feed ch lines).interpreter.Unbroken := by
  intro c hc
  rw [(s.feed_commands ch lines).2.2.2] at hc
  have blank : Text.Unbroken Color.blank.token := by
    have letter : Text.Word Color.blank.token.toList := by decide
    exact letter.2
  refine Command.canvasAfter_colored blank ?_ hs hc
  intro k hk
  obtain ⟨line, listed, asked⟩ := List.mem_filterMap.mp (List.mem_of_mem_take hk)
  have accepted : line.check = .ok k := by
    cases h : line.check with
    | ok j =>
      rw [h] at asked
      cases asked
      rfl
    | error r =>
      rw [h] at asked
      cases asked
  exact (hl line listed).color accepted

/-- A picture is printed in one write, line by line from the top. -/
theorem process_print (s : Interpreter) (ch : Channels σ) {line : Line}
    (asked : line.check = .ok .print) {c : Canvas} (hc : s.canvas = some c) (wf : c.WellFormed) :
    ((s.process ch line).channels.output, (s.process ch line).failure) =
      ch.output.write (Text.ended c.picture) := by
  have shown : (Command.print.execute s.canvas).1.shown = Text.ended c.picture := by
    rw [hc]
    exact Canvas.render_append_break wf
  rw [process_of_check_ok s ch asked, carryOut_eq]
  simp only [shown]

end Interpreter

namespace History

theorem after_unbroken {h : History} (hh : h.interpreter.Unbroken) {call : Call}
    (hl : ∀ line ∈ call.lines, line.IsRead) : (h.after call).interpreter.Unbroken := by
  cases call with
  | process ch line =>
    rw [after, ← Interpreter.feed_singleton]
    exact Interpreter.feed_unbroken hh ch hl
  | run ch lines =>
    rw [after, (h.interpreter.run_channels ch lines).2]
    exact Interpreter.feed_unbroken hh ch hl

theorem foldl_unbroken {h : History} (hh : h.interpreter.Unbroken) {calls : List Call}
    (hl : ∀ call ∈ calls, ∀ line ∈ call.lines, line.IsRead) :
    (calls.foldl after h).interpreter.Unbroken := by
  induction calls generalizing h with
  | nil => exact hh
  | cons call calls ih =>
    have first := after_unbroken hh (hl call List.mem_cons_self)
    exact ih first fun other ho => hl other (List.mem_cons_of_mem call ho)

end History

end PixelScript
