import PixelScript.Command.Coverage

namespace PixelScript

/-- The lines that a response shows. -/
def Response.shown : Response → String
  | printed text => text ++ "\n"
  | noCanvas => "No bitmap created yet\n"
  | done | ignored => ""

/-- What responses show one after the other. -/
def Response.transcript (rs : List Response) : String := String.join (rs.map shown)

namespace Command

/-- The canvas after commands carried out one after the other. -/
def canvasAfter (canvas : Option Canvas) (ks : List Command) : Option Canvas :=
  ks.foldl (fun canvas k => (k.execute canvas).2) canvas

/-- What came of each of them. -/
def responses (canvas : Option Canvas) : List Command → List Response
  | [] => []
  | k :: ks => (k.execute canvas).1 :: responses (k.execute canvas).2 ks

/-- The commands that make a canvas, in place of any that is there. -/
def Opens : Command → Prop
  | create height width => InRange height ∧ InRange width
  | _ => False

instance : (k : Command) → Decidable k.Opens
  | create .. => inferInstanceAs (Decidable (_ ∧ _))
  | clear | print | dot .. | vertical .. | horizontal .. => inferInstanceAs (Decidable False)

@[simp] theorem canvasAfter_nil (canvas : Option Canvas) : canvasAfter canvas [] = canvas := rfl

@[simp] theorem canvasAfter_cons (canvas : Option Canvas) (k : Command) (ks : List Command) :
    canvasAfter canvas (k :: ks) = canvasAfter (k.execute canvas).2 ks := rfl

theorem canvasAfter_append (canvas : Option Canvas) (js ks : List Command) :
    canvasAfter canvas (js ++ ks) = canvasAfter (canvasAfter canvas js) ks := by
  unfold canvasAfter
  rw [List.foldl_append]

theorem execute_of_opens {k : Command} (h : k.Opens) (canvas : Option Canvas) :
    ∃ height width c, k = create height width ∧ Canvas.create width height = .ok c ∧
      c.width = width ∧ c.height = height ∧ k.execute canvas = (.done, some c) := by
  cases k with
  | create height width =>
    obtain ⟨hh, hw⟩ := h
    have hc : Canvas.create width height =
        .ok ⟨width, height, Array.replicate (width * height) Color.blank⟩ := by
      simp [Canvas.create, hh, hw]
    exact ⟨height, width, _, rfl, hc, rfl, rfl, by simp [execute, hc]⟩
  | clear => cases h
  | dot _ _ _ => cases h
  | vertical _ _ _ _ => cases h
  | horizontal _ _ _ _ => cases h
  | print => cases h

theorem execute_none_of_not_opens {k : Command} (h : ¬k.Opens) : (k.execute none).2 = none := by
  cases k with
  | create height width =>
    have hn : ¬(InRange width ∧ InRange height) := fun hr => h ⟨hr.2, hr.1⟩
    simp [execute, Canvas.create, hn]
  | clear => rfl
  | dot _ _ _ => rfl
  | vertical _ _ _ _ => rfl
  | horizontal _ _ _ _ => rfl
  | print => rfl

/-- Only `print` shows anything. -/
theorem shown_of_ne_print {k : Command} (h : k ≠ print) (canvas : Option Canvas) :
    (k.execute canvas).1.shown = "" := by
  cases k with
  | print => exact absurd rfl h
  | create height width =>
    simp only [execute]
    split <;> rfl
  | clear => cases canvas <;> rfl
  | dot _ _ _ | vertical _ _ _ _ | horizontal _ _ _ _ =>
    cases canvas with
    | none => rfl
    | some c =>
      simp only [execute]
      split <;> rfl

theorem execute_of_color {k : Command} (hk : k.color?.isSome) (c : Canvas) :
    k.execute (some c) = (draw c k).elim (.ignored, some c) fun d => (.done, some d) := by
  cases k with
  | dot _ _ _ | vertical _ _ _ _ | horizontal _ _ _ _ =>
    simp only [execute]
    split
    · next d drawn =>
      rw [drawn]
      rfl
    · next refused =>
      rw [refused]
      rfl
  | create _ _ | clear | print => cases hk

/-- What a command other than `clear` and those that open leaves of a canvas. -/
theorem execute_draw {c : Canvas} {k : Command} (ho : ¬k.Opens) (hk : k ≠ clear) :
    (k.execute (some c)).2 = some ((draw c k).getD c) := by
  cases k with
  | create height width =>
    have hn : ¬(InRange width ∧ InRange height) := fun hr => ho ⟨hr.2, hr.1⟩
    simp [execute, Canvas.create, hn, draw]
  | clear => exact absurd rfl hk
  | dot x y color => cases h : draw c (dot x y color) <;> simp [execute, h]
  | vertical x y1 y2 color => cases h : draw c (vertical x y1 y2 color) <;> simp [execute, h]
  | horizontal y x1 x2 color => cases h : draw c (horizontal y x1 x2 color) <;> simp [execute, h]
  | print => rfl

/-- A canvas keeps its sides until the next one is made. Each cell takes the color of a command
that covers it, and is blank after `clear`. -/
theorem execute_of_not_opens {c : Canvas} (hc : c.WellFormed) {k : Command} (ho : ¬k.Opens) :
    ∃ d, (k.execute (some c)).2 = some d ∧ d.WellFormed ∧
      d.width = c.width ∧ d.height = c.height ∧
      ∀ col row, c.Holds col row → d.get? col row =
        if k = clear then some Color.blank
        else if k.Covers col row then k.color? else c.get? col row := by
  by_cases hk : k = clear
  · subst hk
    refine ⟨c.clear, rfl, Canvas.clear_wellFormed hc, rfl, rfl, ?_⟩
    intro col row h
    simp [Canvas.get?_clear hc, h]
  · refine ⟨(draw c k).getD c, execute_draw ho hk, ?_⟩
    cases hd : draw c k with
    | none =>
      refine ⟨hc, rfl, rfl, ?_⟩
      intro col row h
      have outside : ¬k.Covers col row := by
        intro hcov
        have drawn := isSome_draw.mpr ⟨col, row, h, hcov⟩
        rw [hd] at drawn
        cases drawn
      simp [hk, outside]
    | some d =>
      have size := draw_size hd
      refine ⟨draw_wellFormed hc hd, size.1, size.2, ?_⟩
      intro col row h
      simp [hk, get?_draw hc hd, h]

theorem execute_wellFormed {c : Canvas} {canvas : Option Canvas}
    (hc : ∀ b, canvas = some b → b.WellFormed) {k : Command}
    (h : (k.execute canvas).2 = some c) : c.WellFormed := by
  by_cases ho : k.Opens
  · obtain ⟨height, width, d, _, hd, _, _, he⟩ := execute_of_opens ho canvas
    rw [he] at h
    cases h
    exact Canvas.create_wellFormed hd
  · cases canvas with
    | none =>
      rw [execute_none_of_not_opens ho] at h
      cases h
    | some b =>
      obtain ⟨d, hd, wf, _⟩ := execute_of_not_opens (hc b rfl) ho
      rw [hd] at h
      cases h
      exact wf

/-- Every canvas that commands lead to is well-formed. -/
theorem canvasAfter_wellFormed {c : Canvas} {canvas : Option Canvas}
    (hc : ∀ b, canvas = some b → b.WellFormed) {ks : List Command}
    (h : canvasAfter canvas ks = some c) : c.WellFormed := by
  induction ks generalizing canvas with
  | nil => exact hc c h
  | cons k ks ih =>
    apply ih _ h
    intro b hb
    exact execute_wellFormed hc hb

end Command

end PixelScript
