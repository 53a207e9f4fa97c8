import PixelScript.Command

namespace PixelScript.Command

/-- The cells that a drawing command is about; columns and rows count from 0. -/
def Covers : Command → Nat → Nat → Prop
  | dot x y _, col, row => x = col + 1 ∧ y = row + 1
  | vertical x y1 y2 _, col, row =>
    x = col + 1 ∧ 1 ≤ min y1 y2 ∧ min y1 y2 ≤ row + 1 ∧ row + 1 ≤ max y1 y2
  | horizontal y x1 x2 _, col, row =>
    y = row + 1 ∧ 1 ≤ min x1 x2 ∧ min x1 x2 ≤ col + 1 ∧ col + 1 ≤ max x1 x2
  | _, _, _ => False

instance : (c : Command) → (col row : Nat) → Decidable (c.Covers col row)
  | dot .., _, _ => inferInstanceAs (Decidable (_ ∧ _))
  | vertical .., _, _ => inferInstanceAs (Decidable (_ ∧ _))
  | horizontal .., _, _ => inferInstanceAs (Decidable (_ ∧ _))
  | create .., _, _ | clear, _, _ | print, _, _ => inferInstanceAs (Decidable False)

def color? : Command → Option Color
  | dot _ _ color | vertical _ _ _ color | horizontal _ _ _ color => some color
  | _ => none

def coordinates : Command → List Nat
  | create height width => [height, width]
  | dot x y _ => [x, y]
  | vertical x y1 y2 _ => [x, y1, y2]
  | horizontal y x1 x2 _ => [y, x1, x2]
  | clear | print => []

theorem paintAll_wellFormed {c : Canvas} (hc : c.WellFormed) (color : Color)
    (places : List (Nat × Nat)) : (paintAll c color places).WellFormed := by
  induction places generalizing c with
  | nil => exact hc
  | cons p ps ih => exact ih (Canvas.paint_wellFormed hc p.1 p.2 color)

theorem paintAll_size (c : Canvas) (color : Color) (places : List (Nat × Nat)) :
    (paintAll c color places).width = c.width ∧ (paintAll c color places).height = c.height := by
  induction places generalizing c with
  | nil => exact ⟨rfl, rfl⟩
  | cons p ps ih =>
    have h := ih (c.paint p.1 p.2 color)
    simpa [paintAll] using h

theorem get?_paintAll {c : Canvas} (hc : c.WellFormed) (color : Color) (places : List (Nat × Nat))
    (i j : Nat) : (paintAll c color places).get? i j =
      if c.Holds i j ∧ (i, j) ∈ places then some color else c.get? i j := by
  induction places generalizing c with
  | nil => simp [paintAll]
  | cons p ps ih =>
    have h := ih (Canvas.paint_wellFormed hc p.1 p.2 color)
    rw [Canvas.get?_paint hc] at h
    simp only [Canvas.holds_paint] at h
    change (paintAll (c.paint p.1 p.2 color) color ps).get? i j = _
    rw [h]
    by_cases hij : c.Holds i j
    · by_cases hp : p = (i, j)
      · subst hp
        simp [hij]
      · have ne : ¬(p.1 = i ∧ p.2 = j) := fun h => hp (Prod.ext h.1 h.2)
        simp [hij, ne, Ne.symm hp]
    · simp [hij]

/-- Painting is all that a drawing command does. -/
theorem exists_paintAll_of_draw {c d : Canvas} {k : Command} (h : draw c k = some d) :
    ∃ color places, d = paintAll c color places := by
  cases k with
  | dot x y color =>
    simp only [draw, Option.ite_none_right_eq_some, Option.some.injEq] at h
    exact ⟨color, _, h.2.symm⟩
  | vertical x y1 y2 color =>
    simp only [draw, Option.ite_none_right_eq_some, Option.some.injEq] at h
    exact ⟨color, _, h.2.symm⟩
  | horizontal y x1 x2 color =>
    simp only [draw, Option.ite_none_right_eq_some, Option.some.injEq] at h
    exact ⟨color, _, h.2.symm⟩
  | create _ _ => cases h
  | clear => cases h
  | print => cases h

theorem draw_wellFormed {c d : Canvas} (hc : c.WellFormed) {k : Command} (h : draw c k = some d) :
    d.WellFormed := by
  obtain ⟨color, places, hd⟩ := exists_paintAll_of_draw h
  rw [hd]
  exact paintAll_wellFormed hc color places

theorem draw_size {c d : Canvas} {k : Command} (h : draw c k = some d) :
    d.width = c.width ∧ d.height = c.height := by
  obtain ⟨color, places, hd⟩ := exists_paintAll_of_draw h
  rw [hd]
  exact paintAll_size c color places

/-- The order of the cells and how often each is painted make no difference. -/
theorem paintAll_congr {c : Canvas} (hc : c.WellFormed) (color : Color)
    {ps qs : List (Nat × Nat)} (h : ∀ p, p ∈ ps ↔ p ∈ qs) :
    paintAll c color ps = paintAll c color qs := by
  have hp := paintAll_size c color ps
  have hq := paintAll_size c color qs
  apply Canvas.ext_get? (paintAll_wellFormed hc color ps) (paintAll_wellFormed hc color qs)
  · rw [hp.1, hq.1]
  · rw [hp.2, hq.2]
  · intro i j _
    simp only [get?_paintAll hc, h]

/-- A stroke drawn step by step from end to end, also where the ends lie far outside. -/
def drawBySteps (c : Canvas) : Command → Option Canvas
  | vertical x y1 y2 color =>
    if (1 ≤ x ∧ x ≤ c.width) ∧ Stroke.Meets c.height y1 y2 then
      some (paintAll c color ((Stroke.steps c.height y1 y2).map (x - 1, ·)))
    else none
  | horizontal y x1 x2 color =>
    if (1 ≤ y ∧ y ≤ c.height) ∧ Stroke.Meets c.width x1 x2 then
      some (paintAll c color ((Stroke.steps c.width x1 x2).map (·, y - 1)))
    else none
  | command => draw c command

theorem draw_eq_drawBySteps {c : Canvas} (hc : c.WellFormed) (k : Command) :
    draw c k = drawBySteps c k := by
  cases k with
  | vertical x y1 y2 color =>
    have h : paintAll c color ((Stroke.places c.height y1 y2).map (x - 1, ·)) =
        paintAll c color ((Stroke.steps c.height y1 y2).map (x - 1, ·)) := by
      apply paintAll_congr hc
      intro p
      simp only [List.mem_map, Stroke.mem_places]
    simp only [draw, drawBySteps, h]
  | horizontal y x1 x2 color =>
    have h : paintAll c color ((Stroke.places c.width x1 x2).map (·, y - 1)) =
        paintAll c color ((Stroke.steps c.width x1 x2).map (·, y - 1)) := by
      apply paintAll_congr hc
      intro p
      simp only [List.mem_map, Stroke.mem_places]
    simp only [draw, drawBySteps, h]
  | dot _ _ _ => rfl
  | create _ _ => rfl
  | clear => rfl
  | print => rfl

/-- A drawing command is carried out exactly if it covers a cell of the canvas. -/
theorem isSome_draw {c : Canvas} {k : Command} :
    (draw c k).isSome ↔ ∃ col row, c.Holds col row ∧ k.Covers col row := by
  cases k with
  | dot x y color =>
    simp only [draw, Covers, Canvas.Holds, Option.isSome_ite]
    constructor
    · intro h
      exact ⟨x - 1, y - 1, by omega⟩
    · rintro ⟨col, row, h⟩
      omega
  | vertical x y1 y2 color =>
    simp only [draw, Covers, Canvas.Holds, Option.isSome_ite, Stroke.meets_iff]
    constructor
    · rintro ⟨hx, p, h⟩
      exact ⟨x - 1, p, by omega⟩
    · rintro ⟨col, row, h⟩
      exact ⟨by omega, row, by omega⟩
  | horizontal y x1 x2 color =>
    simp only [draw, Covers, Canvas.Holds, Option.isSome_ite, Stroke.meets_iff]
    constructor
    · rintro ⟨hy, p, h⟩
      exact ⟨p, y - 1, by omega⟩
    · rintro ⟨col, row, h⟩
      exact ⟨by omega, col, by omega⟩
  | create _ _ => simp [draw, Covers]
  | clear => simp [draw, Covers]
  | print => simp [draw, Covers]

/-- It gives its color to the cells that it covers, and to no others. -/
theorem get?_draw {c d : Canvas} (hc : c.WellFormed) {k : Command} (h : draw c k = some d)
    (i j : Nat) : d.get? i j = if c.Holds i j ∧ k.Covers i j then k.color? else c.get? i j := by
  cases k with
  | dot x y color =>
    simp only [draw] at h
    split at h
    · cases h
      rw [get?_paintAll hc]
      have e : (i, j) ∈ [(x - 1, y - 1)] ↔ (dot x y color).Covers i j := by
        simp only [List.mem_singleton, Prod.mk.injEq, Covers]; omega
      simp only [e, color?]
    · cases h
  | vertical x y1 y2 color =>
    simp only [draw] at h
    split at h
    · next hm =>
      cases h
      rw [get?_paintAll hc]
      have e : c.Holds i j ∧ (i, j) ∈ (Stroke.places c.height y1 y2).map (x - 1, ·) ↔
          c.Holds i j ∧ (vertical x y1 y2 color).Covers i j := by
        have hmeets := hm.2
        simp only [List.mem_map, Prod.mk.injEq, Covers, Canvas.Holds, Stroke.Meets] at hm ⊢
        constructor
        · rintro ⟨hh, p, hp, rfl, rfl⟩
          have := (Stroke.mem_places_of_meets hmeets).mp hp
          omega
        · rintro ⟨hh, hx⟩
          exact ⟨hh, j, (Stroke.mem_places_of_meets hmeets).mpr (by omega), by omega, rfl⟩
      simp only [e, color?]
    · cases h
  | horizontal y x1 x2 color =>
    simp only [draw] at h
    split at h
    · next hm =>
      cases h
      rw [get?_paintAll hc]
      have e : c.Holds i j ∧ (i, j) ∈ (Stroke.places c.width x1 x2).map (·, y - 1) ↔
          c.Holds i j ∧ (horizontal y x1 x2 color).Covers i j := by
        have hmeets := hm.2
        simp only [List.mem_map, Prod.mk.injEq, Covers, Canvas.Holds, Stroke.Meets] at hm ⊢
        constructor
        · rintro ⟨hh, p, hp, rfl, rfl⟩
          have := (Stroke.mem_places_of_meets hmeets).mp hp
          omega
        · rintro ⟨hh, hx⟩
          exact ⟨hh, i, (Stroke.mem_places_of_meets hmeets).mpr (by omega), rfl, by omega⟩
      simp only [e, color?]
    · cases h
  | create _ _ => cases h
  | clear => cases h
  | print => cases h

end PixelScript.Command
