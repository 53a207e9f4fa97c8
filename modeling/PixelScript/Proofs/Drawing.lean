import Mathlib.Data.List.DropRight
import PixelScript.Checked
import PixelScript.Command.Effect
import PixelScript.Command.Sequence
import PixelScript.Command.Transpose

namespace PixelScript.Command

/-- The commands after the last `clear`. -/
def sinceClear (ks : List Command) : List Command := ks.rtakeWhile (· ≠ clear)

/-- The last of some commands that covers a cell. -/
def lastOver (ks : List Command) (col row : Nat) : Option Command :=
  ks.reverse.find? fun k => k.Covers col row

/-- The color that commands leave on a cell of a fresh canvas. -/
def lastColor (ks : List Command) (col row : Nat) : Color :=
  ((lastOver (sinceClear ks) col row).bind color?).getD Color.blank

theorem lastColor_concat (ks : List Command) (k : Command) (col row : Nat) :
    lastColor (ks ++ [k]) col row =
      if k = clear then Color.blank
      else if k.Covers col row then k.color?.getD Color.blank
      else lastColor ks col row := by
  unfold lastColor lastOver sinceClear
  by_cases hk : k = clear
  · rw [List.rtakeWhile_concat_neg _ _ _ (by simpa using hk)]
    simp [hk]
  · rw [List.rtakeWhile_concat_pos _ _ _ (by simpa using hk), List.reverse_append]
    by_cases hc : k.Covers col row
    · simp [hk, hc]
    · simp [hk, hc]

/-- A command over a cell has a color. -/
theorem color?_of_covers {k : Command} {col row : Nat} (h : k.Covers col row) :
    k.color? = some (k.color?.getD Color.blank) := by
  cases k with
  | dot _ _ _ => rfl
  | vertical _ _ _ _ => rfl
  | horizontal _ _ _ _ => rfl
  | create _ _ => cases h
  | clear => cases h
  | print => cases h

theorem isSome_execute {canvas : Option Canvas} {k : Command} :
    (k.execute canvas).2.isSome ↔ canvas.isSome ∨ k.Opens := by
  by_cases ho : k.Opens
  · obtain ⟨_, _, c, _, _, _, _, he⟩ := execute_of_opens ho canvas
    simp [he, ho]
  · cases canvas with
    | none => simp [execute_none_of_not_opens ho, ho]
    | some c =>
      by_cases hk : k = clear
      · subst hk
        simp [execute]
      · simp [execute_draw ho hk]

/-- A canvas is there exactly if some command has made one. -/
theorem isSome_canvasAfter {canvas : Option Canvas} {ks : List Command} :
    (canvasAfter canvas ks).isSome ↔ canvas.isSome ∨ ∃ k ∈ ks, k.Opens := by
  induction ks generalizing canvas with
  | nil => simp
  | cons k ks ih => simp [ih, isSome_execute, or_assoc]

/-- The invariant of a run on a fresh canvas: its sides stay, and each cell shows `lastColor`. -/
theorem get?_canvasAfter {c : Canvas} (hc : c.WellFormed)
    (fresh : ∀ col row, c.Holds col row → c.get? col row = some Color.blank)
    {ks : List Command} (hk : ∀ k ∈ ks, ¬k.Opens) :
    ∃ d, canvasAfter (some c) ks = some d ∧ d.WellFormed ∧
      d.width = c.width ∧ d.height = c.height ∧
      ∀ col row, d.Holds col row → d.get? col row = some (lastColor ks col row) := by
  induction ks using List.reverseRecOn with
  | nil => exact ⟨c, rfl, hc, rfl, rfl, fresh⟩
  | append_singleton ks k ih =>
    have before : ∀ j ∈ ks, ¬j.Opens := fun j hj => hk j (by simp [hj])
    obtain ⟨d, hd, wf, width, height, cells⟩ := ih before
    obtain ⟨e, he, wf', width', height', step⟩ := execute_of_not_opens wf (hk k (by simp))
    refine ⟨e, ?_, wf', width'.trans width, height'.trans height, ?_⟩
    · rw [canvasAfter_append, hd]
      exact he
    · intro col row h
      have hd' : d.Holds col row := by simpa only [Canvas.Holds, width', height'] using h
      rw [step col row hd', lastColor_concat]
      by_cases hclear : k = clear
      · simp [hclear]
      · by_cases hcov : k.Covers col row
        · simp only [hclear, hcov, if_true, if_false]
          exact color?_of_covers hcov
        · simp only [hclear, hcov, if_false]
          exact cells col row hd'

/-- Last writer wins: each cell has the color of the last command over it since the canvas was
opened or cleared. Strokes are drawn step by step, and no step leaves the span of its stroke. -/
theorem canvasAfter_lastWriter (ks : List Command) :
    ((canvasAfter none ks).isSome ↔ ∃ k ∈ ks, k.Opens) ∧
    (∀ before height width since, ks = before ++ create height width :: since →
      (create height width).Opens → (∀ k ∈ since, ¬k.Opens) →
      ∃ c, canvasAfter none ks = some c ∧ c.width = width ∧ c.height = height ∧
        ∀ col row, col < width → row < height → c.get? col row =
          some (((lastOver (sinceClear since) col row).bind color?).getD Color.blank)) ∧
    (∀ c k, Canvas.WellFormed c → draw c k = drawBySteps c k) ∧
    (∀ bound a b place, Stroke.Meets bound a b → place ∈ Stroke.steps bound a b →
      place < bound ∧ min a b ≤ place + 1 ∧ place + 1 ≤ max a b) := by
  refine ⟨?_, ?_, fun c k hc => draw_eq_drawBySteps hc k, ?_⟩
  · rw [isSome_canvasAfter]
    simp
  · intro before height width since hks ho hsince
    obtain ⟨_, _, c, hcreate, hc, hw, hh, he⟩ := execute_of_opens ho (canvasAfter none before)
    cases hcreate
    have wf := Canvas.create_wellFormed hc
    have fresh : ∀ col row, c.Holds col row → c.get? col row = some Color.blank := by
      intro col row h
      rw [Canvas.get?_create hc, if_pos h]
    obtain ⟨d, hd, _, width', height', cells⟩ := get?_canvasAfter wf fresh hsince
    refine ⟨d, ?_, width'.trans hw, height'.trans hh, ?_⟩
    · rw [hks, canvasAfter_append, canvasAfter_cons, he]
      exact hd
    · intro col row hcol hrow
      have holds : d.Holds col row := by
        refine ⟨?_, ?_⟩ <;> omega
      exact cells col row holds
  · intro bound a b place hm hp
    exact (Stroke.mem_steps_of_meets hm).mp hp

/-- A second canvas that is cleared, struck past its edge, and not replaced by a third. -/
theorem canvasAfter_lastWriter_second_canvas :
    let red : Color := ⟨"Red", by decide +kernel⟩
    let before := [print, create 9 9, dot 1 1 red]
    let since := [horizontal 1 2 1 red, clear, vertical 2 200 2 red, create 251 4, dot 2 0 red,
      horizontal 2 1 1 Color.blank]
    ∃ c, canvasAfter none (before ++ create 3 2 :: since) = some c ∧ c.width = 2 ∧ c.height = 3 ∧
      c.get? 0 0 = some Color.blank ∧ c.get? 1 0 = some Color.blank ∧
      c.get? 1 1 = some red ∧ c.get? 1 2 = some red := by
  intro red before since
  obtain ⟨c, hc, hw, hh, cells⟩ :=
    (canvasAfter_lastWriter (before ++ create 3 2 :: since)).2.1 before 3 2 since rfl
      (by decide) (by decide)
  refine ⟨c, hc, hw, hh, ?_, ?_, ?_, ?_⟩
  · exact cells 0 0 (by decide) (by decide)
  · exact cells 1 0 (by decide) (by decide)
  · exact cells 1 1 (by decide) (by decide)
  · exact cells 1 2 (by decide) (by decide)

/-- The response to a command tells what became of the canvas. Drawing is done exactly if a cell of
the canvas lies on the segment; a command that is not done leaves everything alone. -/
theorem execute_response (ks : List Command) (k : Command) :
    let canvas := canvasAfter none ks
    let done := k.execute canvas
    (done.1 = .noCanvas ↔ k = print ∧ canvas = none) ∧
    (∀ text, done.1 = .printed text ↔ k = print ∧ ∃ c, canvas = some c ∧ text = c.render) ∧
    (done.1 = .done ↔ k.Applies canvas) ∧
    (done.1 = .ignored ↔ k ≠ print ∧ ¬k.Applies canvas) ∧
    (done.1 ≠ .done → done.2 = canvas) ∧
    (∀ c, k.Reaches c ↔ (∀ n ∈ k.coordinates, 1 ≤ n) ∧ k.EndsWithin c) ∧
    ∀ color, k.color? = some color → done.1 = .done →
      ∃ c d, canvas = some c ∧ done.2 = some d ∧ d.width = c.width ∧ d.height = c.height ∧
        ∀ col row, d.get? col row =
          if c.Holds col row ∧ k.Spans col row then some color else c.get? col row := by
  intro canvas done
  have ends (c : Canvas) : k.Reaches c ↔ (∀ n ∈ k.coordinates, 1 ≤ n) ∧ k.EndsWithin c :=
    reaches_iff_endsWithin
  by_cases hk : k = print
  · have shown : done = (canvas.elim .noCanvas (.printed ·.render), canvas) := by
      unfold done
      rw [hk]
      exact execute_print canvas
    rw [shown]
    cases canvas <;> simp [hk, Applies, color?, reaches_iff_endsWithin, eq_comm]
  by_cases applies : k.Applies canvas
  · have carried : done.1 = .done := execute_of_applies applies
    refine ⟨?_, ?_, ?_, ?_, ?_, ends, ?_⟩
    · simp [carried, hk]
    · simp [carried, hk]
    · simp [carried, applies]
    · simp [carried, applies]
    · simp [carried]
    · intro color hcolor _
      obtain ⟨c, hc, reaches⟩ := (applies_of_color (by simp [hcolor])).mp applies
      have sound : c.WellFormed := canvasAfter_wellFormed (by simp) hc
      obtain ⟨d, after, frame⟩ := execute_of_reaches sound hcolor reaches
      rw [← hc] at after
      exact ⟨c, d, hc, after, frame⟩
  · have ignored : done = (.ignored, canvas) := execute_of_not_applies hk applies
    simp [ignored, hk, applies, ends]

/-- A stroke that starts far beyond the canvas, a stroke beside it, and a canvas too wide. -/
theorem execute_response_strokes :
    let green : Color := ⟨"Green", by decide +kernel⟩
    let canvas := canvasAfter none [create 2 3]
    let across := vertical 3 0xFFFFFFFFFFFFFFFF 2 green
    (across.color? = some green ∧ (across.execute canvas).1 = .done ∧
      ∃ d, (across.execute canvas).2 = some d ∧ d.width = 3 ∧ d.height = 2 ∧
        d.get? 2 1 = some green ∧ d.get? 2 0 = some Color.blank) ∧
    ((vertical 4 1 2 green).execute canvas).2 = canvas ∧
    ((create 2 251).execute canvas).2 = canvas := by
  intro green canvas across
  obtain ⟨_, _, done_iff, _, _, _, drawn⟩ := execute_response [create 2 3] across
  obtain ⟨_, _, _, _, beside, _⟩ := execute_response [create 2 3] (vertical 4 1 2 green)
  obtain ⟨_, _, _, _, wide, _⟩ := execute_response [create 2 3] (create 2 251)
  have reached : across.Applies canvas :=
    ⟨_, rfl, by decide, 2, 1, by decide, by decide⟩
  obtain ⟨c, d, made, after, width, height, cells⟩ := drawn green rfl (done_iff.mpr reached)
  cases made
  refine ⟨⟨rfl, done_iff.mpr reached, d, after, width, height, cells 2 1, cells 2 0⟩, ?_, ?_⟩
  · exact beside (by decide)
  · exact wide (by decide)

/-- The commands for the mirror image get the same responses one by one, and after each of them the
canvases, if there are any, are mirror images. -/
theorem canvasAfter_transpose (ks : List Command) :
    (responses none (ks.map transpose)).map Response.kind =
        (responses none ks).map Response.kind ∧
      ∀ n, Mirrors (canvasAfter none (ks.take n)) (canvasAfter none ((ks.map transpose).take n)) := by
  refine ⟨(canvasAfter_mirrors .absent ks).1, ?_⟩
  intro n
  rw [← List.map_take]
  exact (canvasAfter_mirrors .absent (ks.take n)).2

/-- A stroke from beyond the canvas, on a canvas that is not square. -/
example :
    let ks := [create 2 3, vertical 3 9 2 ⟨"R", by decide +kernel⟩, print]
    responses none ks = [.done, .done, .printed "OOO\nOOR"] ∧
    responses none (ks.map transpose) = [.done, .done, .printed "OO\nOO\nOR"] := by
  decide +kernel

/-- No operation is ever used outside of its range, whatever the commands and their coordinates: any
commands pass all checks, and so does any next command or access to the canvas. -/
theorem canvasAfter_trapFree (ks : List Command) :
    let canvas := canvasAfter none ks
    Checked.canvasAfter none ks = .ok canvas ∧
    (∀ k : Command, Checked.execute canvas k = .ok (k.execute canvas)) ∧
    ∀ c, canvas = some c →
      c.WellFormed ∧ (∀ color ∈ c.cells, color.token ≠ "" ∧ Color.parse color.token = .ok color) ∧
      (∀ col row, c.Holds col row → row * c.width + col < c.cells.size) ∧
      (∀ col row, Checked.get? c col row = .ok (c.get? col row)) ∧
      (∀ col row color, Checked.paint c col row color =
        .ok (if c.Holds col row then some (c.paint col row color) else none)) ∧
      Checked.rows c = .ok c.rows ∧ Checked.render c = .ok c.render := by
  intro canvas
  have fresh : ∀ c : Canvas, none = some c → c.WellFormed := by
    intro c hc
    cases hc
  have sound : ∀ c, canvas = some c → c.WellFormed := by
    intro c hc
    exact canvasAfter_wellFormed fresh hc
  refine ⟨Checked.canvasAfter_eq fresh ks, Checked.execute_eq sound, ?_⟩
  intro c hc
  have wf := sound c hc
  refine ⟨wf, ?_, ?_, Checked.get?_eq wf, Checked.paint_eq wf, Checked.rows_eq wf,
    Checked.render_eq wf⟩
  · intro color _
    exact ⟨color.token_ne_empty, color.parse_token⟩
  · intro col row holds
    exact Canvas.index_lt wf holds

/-- The first stroke starts beyond the canvas, and the second has 2⁶⁴ - 1 steps. -/
theorem canvasAfter_trapFree_long_stroke :
    let red : Color := ⟨"R", by decide +kernel⟩
    let ks := [create 2 3, vertical 3 9 2 red, horizontal 1 0xFFFFFFFFFFFFFFFF 1 red]
    let canvas := canvasAfter none ks
    Checked.canvasAfter none ks = .ok canvas ∧
    Checked.execute canvas print = .ok (.printed "RRR\nOOR", canvas) ∧
    ∃ c, canvas = some c ∧ Checked.get? c 2 1 = .ok (some red) ∧
      Checked.get? c 0xFFFFFFFFFFFFFFFF 1 = .ok none := by
  intro red ks canvas
  obtain ⟨reached, next, state⟩ := canvasAfter_trapFree ks
  have made : canvas = some ⟨3, 2, #[red, red, red, .blank, .blank, red]⟩ := by decide +kernel
  have printed : print.execute canvas = (.printed "RRR\nOOR", canvas) := by
    rw [made]
    decide +kernel
  obtain ⟨_, _, _, look, _⟩ := state _ made
  refine ⟨reached, ?_, _, made, ?_, ?_⟩
  · rw [next, printed]
  · rw [look]
    rfl
  · rw [look]
    rfl

end PixelScript.Command
