import PixelScript.Command.Sequence

namespace PixelScript.Command

variable {c : Canvas} {canvas : Option Canvas} {k : Command}

/-- The cells on the segment between the ends of a stroke, both included, or the one of a dot. -/
def Spans : Command → Nat → Nat → Prop
  | dot x y _, col, row => x = col + 1 ∧ y = row + 1
  | vertical x y1 y2 _, col, row => x = col + 1 ∧ min y1 y2 ≤ row + 1 ∧ row + 1 ≤ max y1 y2
  | horizontal y x1 x2 _, col, row => y = row + 1 ∧ min x1 x2 ≤ col + 1 ∧ col + 1 ≤ max x1 x2
  | _, _, _ => False

instance : (k : Command) → (col row : Nat) → Decidable (k.Spans col row)
  | dot .., _, _ | vertical .., _, _ | horizontal .., _, _ => inferInstanceAs (Decidable (_ ∧ _))
  | create .., _, _ | clear, _, _ | print, _, _ => inferInstanceAs (Decidable False)

/-- No coordinate is 0, and a cell of the canvas lies on the segment. -/
def Reaches (k : Command) (c : Canvas) : Prop :=
  (∀ n ∈ k.coordinates, 1 ≤ n) ∧ ∃ col row, c.Holds col row ∧ k.Spans col row

/-- The fixed coordinate of a stroke is not beyond the canvas, nor is one of its ends. -/
def EndsWithin (c : Canvas) : Command → Prop
  | dot x y _ => x ≤ c.width ∧ y ≤ c.height
  | vertical x y1 y2 _ => x ≤ c.width ∧ (y1 ≤ c.height ∨ y2 ≤ c.height)
  | horizontal y x1 x2 _ => y ≤ c.height ∧ (x1 ≤ c.width ∨ x2 ≤ c.width)
  | _ => False

/-- When a command is carried out, said without drawing anything. -/
def Applies (canvas : Option Canvas) : Command → Prop
  | create height width => InRange height ∧ InRange width
  | clear => canvas.isSome
  | print => False
  | k => ∃ c, canvas = some c ∧ k.Reaches c

theorem covers_iff {col row : Nat} :
    k.Covers col row ↔ (∀ n ∈ k.coordinates, 1 ≤ n) ∧ k.Spans col row := by
  cases k with
  | dot x y _ | vertical x y1 y2 _ | horizontal y x1 x2 _ =>
    simp only [Covers, coordinates, Spans, List.forall_mem_cons, List.not_mem_nil,
      false_implies, implies_true, and_true]
    omega
  | create _ _ | clear | print => simp [Covers, coordinates, Spans]

theorem isSome_draw_iff_reaches : (draw c k).isSome ↔ k.Reaches c := by
  rw [isSome_draw, Reaches]
  simp only [covers_iff]
  constructor
  · rintro ⟨col, row, held, positive, spans⟩
    exact ⟨positive, col, row, held, spans⟩
  · rintro ⟨positive, col, row, held, spans⟩
    exact ⟨col, row, held, positive, spans⟩

/-- One end on the canvas is enough for a cell in between to be, and needed. -/
theorem reaches_iff_endsWithin :
    k.Reaches c ↔ (∀ n ∈ k.coordinates, 1 ≤ n) ∧ k.EndsWithin c := by
  rw [← isSome_draw_iff_reaches]
  cases k with
  | dot x y _ | vertical x y1 y2 _ | horizontal y x1 x2 _ =>
    rw [draw, Option.isSome_ite]
    simp only [Stroke.Meets, coordinates, EndsWithin, List.forall_mem_cons, List.not_mem_nil,
      false_implies, implies_true, and_true]
    omega
  | create _ _ | clear | print => simp [draw, EndsWithin]

theorem execute_print (canvas : Option Canvas) :
    print.execute canvas = (canvas.elim .noCanvas (.printed ·.render), canvas) := by
  cases canvas
  all_goals rfl

theorem applies_of_color (hk : k.color?.isSome) :
    k.Applies canvas ↔ ∃ c, canvas = some c ∧ k.Reaches c := by
  cases k with
  | dot _ _ _ | vertical _ _ _ _ | horizontal _ _ _ _ => rfl
  | create _ _ | clear | print => cases hk

/-- A command that is not carried out leaves everything as it is. -/
theorem execute_of_not_applies (hk : k ≠ print) (refused : ¬k.Applies canvas) :
    k.execute canvas = (.ignored, canvas) := by
  cases k with
  | create height width =>
    have sides : ¬(InRange width ∧ InRange height) := fun h => refused h.symm
    simp [execute, Canvas.create, sides]
  | clear =>
    cases canvas with
    | none => rfl
    | some c => exact absurd rfl refused
  | print => exact absurd rfl hk
  | dot _ _ _ | vertical _ _ _ _ | horizontal _ _ _ _ =>
    cases canvas with
    | none => rfl
    | some c =>
      rw [applies_of_color rfl] at refused
      rw [execute_of_color rfl]
      cases drawn : draw c _ with
      | none => rfl
      | some d => exact absurd ⟨c, rfl, isSome_draw_iff_reaches.mp (by rw [drawn]; rfl)⟩ refused

theorem execute_of_applies (applies : k.Applies canvas) : (k.execute canvas).1 = .done := by
  cases k with
  | create height width =>
    obtain ⟨high, wide⟩ := applies
    simp [execute, Canvas.create, high, wide]
  | clear =>
    cases canvas with
    | none => cases applies
    | some c => rfl
  | print => cases applies
  | dot _ _ _ | vertical _ _ _ _ | horizontal _ _ _ _ =>
    obtain ⟨c, rfl, reaches⟩ := applies
    obtain ⟨d, drawn⟩ := Option.isSome_iff_exists.mp (isSome_draw_iff_reaches.mpr reaches)
    rw [execute_of_color rfl, drawn]
    rfl

/-- Drawing gives the cells on the segment the color, and leaves the others and the sides alone. -/
theorem execute_of_reaches (hc : c.WellFormed) {color : Color} (hk : k.color? = some color)
    (reaches : k.Reaches c) :
    ∃ d, (k.execute (some c)).2 = some d ∧ d.width = c.width ∧ d.height = c.height ∧
      ∀ col row, d.get? col row =
        if c.Holds col row ∧ k.Spans col row then some color else c.get? col row := by
  obtain ⟨d, drawn⟩ := Option.isSome_iff_exists.mp (isSome_draw_iff_reaches.mpr reaches)
  refine ⟨d, ?_, (draw_size drawn).1, (draw_size drawn).2, ?_⟩
  · rw [execute_of_color (by rw [hk]; rfl), drawn]
    rfl
  · intro col row
    have covered : k.Covers col row ↔ k.Spans col row := by
      rw [covers_iff, and_iff_right reaches.1]
    rw [get?_draw hc drawn, hk]
    simp only [covered]

end PixelScript.Command
