import Mathlib.Data.List.Basic
import PixelScript.Interpreter.Pictures
import PixelScript.Log

namespace PixelScript

theorem Response.ended_ne_noCanvas {lines : List String}
    (h : ∀ line ∈ lines, Text.Unbroken line) : Text.ended lines ≠ noCanvas.shown := by
  intro same
  have space : ' ' ∈ (Text.ended lines).toList := by
    rw [same]
    decide
  have lineBreak : ' ' = '\n' := Text.eq_lineBreak_of_mem_ended h space (by decide)
  exact absurd lineBreak (by decide)

/-- A picture has a line for each row from the top, the tokens of its cells without blanks. It is
not the notice of a missing canvas, and canvases of one-character colors are told apart. -/
theorem picture_of_rows :
    (∀ calls : List Call, (∀ call ∈ calls, ∀ line ∈ call.lines, line.IsRead) →
      ∀ (σ : Type) [Log σ] (ch : Channels σ) (before : List Line), (∀ line ∈ before, line.IsRead) →
      let p := (History.ofCalls calls).interpreter.feed ch before
      p.failure = none → ∀ line : Line, line.check = .ok .print →
      ∀ c : Canvas, p.interpreter.canvas = some c → ∃ shown : List String,
        shown.length = c.height ∧
        (∀ r < c.height, ∃ row, c.rows[r]? = some row ∧
          row.map some = (List.range c.width).map (c.get? · r) ∧
          shown[r]? = some (String.join (row.map Color.token))) ∧
        (∀ row ∈ shown, Text.Unbroken row) ∧ Text.ended shown ≠ Response.noCanvas.shown ∧
        let q := p.interpreter.process p.channels line
        (q.channels.output, q.failure) = p.channels.output.write (Text.ended shown) ∧
        (p.channels.output.Admits (Text.ended shown).toUTF8.size →
          q.channels.output.bytes = p.channels.output.bytes ++ (Text.ended shown).toUTF8)) ∧
    ∀ c d : Canvas, c.Built → d.Built → (∀ color ∈ c.cells, color.token.length = 1) →
      (∀ color ∈ d.cells, color.token.length = 1) → c.render = d.render →
      c.width = d.width ∧ c.height = d.height ∧ c.cells = d.cells := by
  constructor
  · intro calls read σ _ ch before readBefore p _ line asked c hc
    have clean : (History.ofCalls calls).interpreter.Unbroken :=
      History.foldl_unbroken Interpreter.start_unbroken read
    have colored := Interpreter.feed_unbroken clean ch readBefore c hc
    have wf := colored.wellFormed
    have written := p.interpreter.process_print p.channels asked hc wf
    refine ⟨c.picture, ?_, ?_, colored.unbroken_picture,
      Response.ended_ne_noCanvas colored.unbroken_picture, written, ?_⟩
    · rw [Canvas.picture, List.length_map, Canvas.length_rows wf]
    · intro r hr
      obtain ⟨row, found, cells⟩ := Canvas.exists_row wf hr
      refine ⟨row, found, cells, ?_⟩
      rw [Canvas.picture, List.getElem?_map, found]
      rfl
    · intro room
      rw [Output.write_of_admits room] at written
      exact congrArg Output.bytes (congrArg Prod.fst written)
  · intro c d hc hd single single' same
    have equal := Canvas.render_inj hc.wellFormed hd.wellFormed single single' same
    rw [equal]
    exact ⟨rfl, rfl, rfl⟩

/-- A picture after a line that is rejected and a color of two characters, in just enough room, and
two canvases painted in different order. -/
theorem picture_of_rows_second_picture :
    let calls : List Call := [.run ⟨Journal.empty, .unlimited, []⟩
      [.ofText 1 "I 2 3", .ofText 2 "S", .ofText 3 "L 1\u20032"]]
    let before : List Line := [.ofText 1 "V 2 9 2 ab"]
    let p := (History.ofCalls calls).interpreter.feed ⟨Journal.empty, Output.limited 9 .noSpace, []⟩
      before
    let red : Color := ⟨"r", by decide +kernel⟩
    let green : Color := ⟨"é", by decide +kernel⟩
    let fresh : Canvas := ⟨2, 1, #[.blank, .blank]⟩
    (p.interpreter.process p.channels (.ofText 2 "\tS\r")).channels.output.bytes =
      "OOO\nOabO\n".toUTF8 ∧
    ((fresh.paint 0 0 red).paint 1 0 green).cells =
      ((fresh.paint 1 0 green).paint 0 0 red).cells := by
  intro calls before p red green fresh
  let ab : Color := ⟨"ab", by decide +kernel⟩
  let c : Canvas := ⟨3, 2, #[.blank, .blank, .blank, .blank, ab, .blank]⟩
  have read : ∀ call ∈ calls, ∀ line ∈ call.lines, line.IsRead := by
    simp only [calls, List.forall_mem_singleton, Call.lines, List.forall_mem_cons]
    exact ⟨.ofText _ _, .ofText _ _, .ofText _ _⟩
  have readBefore : ∀ line ∈ before, line.IsRead := by
    simp only [before, List.forall_mem_singleton]
    exact .ofText _ _
  have reached : p.interpreter.canvas = some c := by decide +kernel
  have asked : (Line.ofText 2 "\tS\r").check = .ok .print := by rfl
  have going : p.failure = none := by decide +kernel
  obtain ⟨shown, height, rows, _, _, _, appended⟩ :=
    picture_of_rows.1 calls read Journal ⟨Journal.empty, Output.limited 9 .noSpace, []⟩ before
      readBefore going _ asked c reached
  obtain ⟨top, bottom, rfl⟩ := List.length_eq_two.mp height
  obtain ⟨row, found, _, first⟩ := rows 0 (by decide)
  obtain ⟨row', found', _, second⟩ := rows 1 (by decide)
  have upper : c.rows[0]? = some [.blank, .blank, .blank] := by decide +kernel
  have lower : c.rows[1]? = some [.blank, ab, .blank] := by decide +kernel
  rw [found] at upper
  rw [found'] at lower
  cases upper
  cases lower
  cases first
  cases second
  have room : p.channels.output.room = some 9 := by decide +kernel
  constructor
  · apply appended
    intro size hs
    cases room.symm.trans hs
    decide +kernel
  · have made : Canvas.create 2 1 = .ok fresh := by rfl
    have built : fresh.Built := .create made
    exact (picture_of_rows.2 _ _ ((built.paint 0 0 red).paint 1 0 green)
      ((built.paint 1 0 green).paint 0 0 red) (by decide) (by decide) (by decide +kernel)).2.2

end PixelScript
