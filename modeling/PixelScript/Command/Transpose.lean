import PixelScript.Command.Sequence

namespace PixelScript

/-- Two canvases that are mirror images, with rows for columns. -/
structure Canvas.Mirror (c d : Canvas) : Prop where
  left : c.WellFormed
  right : d.WellFormed
  width : d.width = c.height
  height : d.height = c.width
  get? : ∀ col row, d.get? row col = c.get? col row

namespace Canvas

variable {c d : Canvas}

theorem holds_exchanged (width : d.width = c.height) (height : d.height = c.width) {col row : Nat} :
    d.Holds row col ↔ c.Holds col row := by
  unfold Holds
  rw [width, height, and_comm]

theorem Mirror.holds_iff (h : c.Mirror d) {col row : Nat} : d.Holds row col ↔ c.Holds col row :=
  holds_exchanged h.width h.height

theorem size_create {width height : Nat} (h : create width height = .ok c) :
    c.width = width ∧ c.height = height := by
  unfold create at h
  split at h
  · cases h
    exact ⟨rfl, rfl⟩
  · cases h

theorem Mirror.of_create {width height : Nat} (hc : create width height = .ok c)
    (hd : create height width = .ok d) : c.Mirror d := by
  obtain ⟨cw, ch⟩ := size_create hc
  obtain ⟨dw, dh⟩ := size_create hd
  have width : d.width = c.height := dw.trans ch.symm
  have height : d.height = c.width := dh.trans cw.symm
  refine ⟨create_wellFormed hc, create_wellFormed hd, width, height, ?_⟩
  intro col row
  rw [get?_create hc, get?_create hd]
  simp only [holds_exchanged width height]

theorem Mirror.clear (h : c.Mirror d) : c.clear.Mirror d.clear := by
  refine ⟨clear_wellFormed h.left, clear_wellFormed h.right, h.width, h.height, ?_⟩
  intro col row
  rw [get?_clear h.left, get?_clear h.right]
  simp only [h.holds_iff]

end Canvas

/-- The class of a response, whatever it prints. -/
inductive Response.Kind where
  | done
  | ignored
  | printed
  | noCanvas
  deriving DecidableEq

def Response.kind : Response → Kind
  | done => .done
  | ignored => .ignored
  | printed _ => .printed
  | noCanvas => .noCanvas

namespace Command

/-- The command for the mirror image. Strokes down become strokes across. -/
def transpose : Command → Command
  | create height width => create width height
  | clear => clear
  | dot x y color => dot y x color
  | vertical x y1 y2 color => horizontal x y1 y2 color
  | horizontal y x1 x2 color => vertical y x1 x2 color
  | print => print

theorem covers_transpose {k : Command} {col row : Nat} :
    k.transpose.Covers row col ↔ k.Covers col row := by
  cases k with
  | dot x y color => exact and_comm
  | create _ _ | clear | vertical _ _ _ _ | horizontal _ _ _ _ | print => exact Iff.rfl

theorem color?_transpose (k : Command) : k.transpose.color? = k.color? := by
  cases k
  all_goals rfl

section Draw

variable {c d : Canvas} (h : c.Mirror d)

include h

/-- A command covers a cell of one canvas exactly if the other command covers one of the other. -/
theorem isSome_draw_transpose (k : Command) :
    (draw d k.transpose).isSome ↔ (draw c k).isSome := by
  rw [isSome_draw, isSome_draw, exists_comm]
  simp only [h.holds_iff, covers_transpose]

theorem mirror_draw {k : Command} {c' d' : Canvas} (hc : draw c k = some c')
    (hd : draw d k.transpose = some d') : c'.Mirror d' := by
  obtain ⟨cw, ch⟩ := draw_size hc
  obtain ⟨dw, dh⟩ := draw_size hd
  refine ⟨draw_wellFormed h.left hc, draw_wellFormed h.right hd, ?_, ?_, ?_⟩
  · rw [dw, ch, h.width]
  · rw [dh, cw, h.height]
  · intro col row
    rw [get?_draw h.left hc, get?_draw h.right hd, color?_transpose, h.get?]
    simp only [h.holds_iff, covers_transpose]

end Draw

/-- No canvas on either side, or canvases that are mirror images. -/
inductive Mirrors : Option Canvas → Option Canvas → Prop
  | absent : Mirrors none none
  | present {c d : Canvas} (h : c.Mirror d) : Mirrors (some c) (some d)

theorem mirrors_of_color {c d : Canvas} (h : c.Mirror d) {k : Command} (hk : k.color?.isSome) :
    (k.transpose.execute (some d)).1.kind = (k.execute (some c)).1.kind ∧
      Mirrors (k.execute (some c)).2 (k.transpose.execute (some d)).2 := by
  have hk' : k.transpose.color?.isSome := by rwa [color?_transpose]
  have both := isSome_draw_transpose h k
  rw [execute_of_color hk, execute_of_color hk']
  cases hc : draw c k with
  | none =>
    cases hd : draw d k.transpose with
    | none => exact ⟨rfl, .present h⟩
    | some d' => simp [hc, hd] at both
  | some c' =>
    cases hd : draw d k.transpose with
    | none => simp [hc, hd] at both
    | some d' => exact ⟨rfl, .present (mirror_draw h hc hd)⟩

/-- A step keeps mirror images: the same comes of a command and of its mirror image. -/
theorem execute_transpose {canvas other : Option Canvas} (h : Mirrors canvas other) (k : Command) :
    (k.transpose.execute other).1.kind = (k.execute canvas).1.kind ∧
      Mirrors (k.execute canvas).2 (k.transpose.execute other).2 := by
  cases k with
  | create height width =>
    by_cases sides : InRange width ∧ InRange height
    · have made : Canvas.create width height = .ok _ := if_pos sides
      have made' : Canvas.create height width = .ok _ := if_pos sides.symm
      simp only [transpose, execute, made, made', true_and]
      exact .present (.of_create made made')
    · have refused : Canvas.create width height = .error _ := if_neg sides
      have refused' : Canvas.create height width = .error _ := if_neg (sides ∘ And.symm)
      simp only [transpose, execute, refused, refused', true_and]
      exact h
  | clear =>
    cases h with
    | absent => exact ⟨rfl, .absent⟩
    | present h => exact ⟨rfl, .present h.clear⟩
  | print =>
    cases h with
    | absent => exact ⟨rfl, .absent⟩
    | present h => exact ⟨rfl, .present h⟩
  | dot _ _ _ | vertical _ _ _ _ | horizontal _ _ _ _ =>
    cases h with
    | absent => exact ⟨rfl, .absent⟩
    | present h => exact mirrors_of_color h rfl

/-- And so does a run, from its first command to its last. -/
theorem canvasAfter_mirrors {canvas other : Option Canvas} (h : Mirrors canvas other)
    (ks : List Command) :
    (responses other (ks.map transpose)).map Response.kind =
        (responses canvas ks).map Response.kind ∧
      Mirrors (canvasAfter canvas ks) (canvasAfter other (ks.map transpose)) := by
  induction ks generalizing canvas other with
  | nil => exact ⟨rfl, h⟩
  | cons k ks ih =>
    obtain ⟨same, step⟩ := execute_transpose h k
    obtain ⟨kinds, ended⟩ := ih step
    refine ⟨?_, ended⟩
    simp only [List.map_cons, responses, same, kinds]

end Command

end PixelScript
