import PixelScript.Canvas
import PixelScript.Text.Lines

namespace PixelScript

/-- A piece starts where the pieces before it end. -/
theorem getElem?_chunks {α : Type _} {n : Nat} (hn : 0 < n) (as : List α) (r : Nat) :
    (chunks n as)[r]? = if r * n < as.length then some ((as.drop (r * n)).take n) else none := by
  induction as using chunks.induct n generalizing r with
  | case1 => simp [chunks]
  | case2 a as ih =>
    obtain ⟨m, rfl⟩ := Nat.exists_eq_add_one.mpr hn
    rw [chunks]
    cases r with
    | zero => simp
    | succ r =>
      have past : (r + 1) * (m + 1) = r * (m + 1) + m + 1 := by rw [Nat.succ_mul]; rfl
      have bound : r * (m + 1) < as.length - m ↔ r * (m + 1) + m < as.length := by omega
      rw [List.getElem?_cons_succ, ih, past, List.drop_succ_cons]
      simp only [Nat.add_sub_cancel, List.length_drop, List.drop_drop, List.length_cons, bound,
        Nat.add_lt_add_iff_right, Nat.add_comm m (r * (m + 1))]

namespace Canvas

variable {c d : Canvas}

theorem getElem?_rows (hc : c.WellFormed) (row : Nat) :
    c.rows[row]? = if row < c.height then
      some ((c.cells.toList.drop (row * c.width)).take c.width) else none := by
  have wide : 0 < c.width := hc.width_inRange.1
  have within : row * c.width < c.width * c.height ↔ row < c.height := by
    rw [Nat.mul_comm row]
    exact Nat.mul_lt_mul_left wide
  rw [rows, getElem?_chunks wide, Array.length_toList, hc.size_cells]
  simp only [within]

theorem length_rows (hc : c.WellFormed) : c.rows.length = c.height := by
  have absent (row : Nat) : c.rows.length ≤ row ↔ c.height ≤ row := by
    rw [← List.getElem?_eq_none_iff, getElem?_rows hc]
    simp
  have upper := absent c.height
  have lower := absent c.rows.length
  omega

theorem rows_ne_nil (hc : c.WellFormed) : c.rows ≠ [] := by
  intro empty
  have none_left := length_rows hc
  rw [empty, List.length_nil] at none_left
  have high := hc.height_inRange.1
  omega

/-- Cutting the cells into rows and computing the index of a cell give the same layout. -/
theorem rows_get? (hc : c.WellFormed) (col row : Nat) :
    c.rows[row]?.bind (·[col]?) = c.get? col row := by
  rw [getElem?_rows hc]
  by_cases hr : row < c.height
  · rw [if_pos hr, Option.bind_some, List.getElem?_take, List.getElem?_drop]
    simp [get?, Holds, hr]
  · simp [get?, Holds, hr]

/-- A row holds the cells from the first column to the last. -/
theorem exists_row (hc : c.WellFormed) {r : Nat} (hr : r < c.height) :
    ∃ row, c.rows[r]? = some row ∧ row.map some = (List.range c.width).map (c.get? · r) := by
  have found := getElem?_rows hc r
  rw [if_pos hr] at found
  refine ⟨_, found, ?_⟩
  apply List.ext_getElem?
  intro col
  have cell := rows_get? hc col r
  rw [found, Option.bind_some] at cell
  rw [List.getElem?_map, List.getElem?_map, cell]
  by_cases hw : col < c.width
  · have holds : (c.get? col r).isSome := (isSome_get? hc).mpr ⟨hw, hr⟩
    obtain ⟨color, hcolor⟩ := Option.isSome_iff_exists.mp holds
    simp [hw, hcolor]
  · simp [hw, get?, Holds]

theorem length_of_mem_rows (hc : c.WellFormed) {row : List Color} (h : row ∈ c.rows) :
    row.length = c.width := by
  obtain ⟨r, hr, found⟩ := List.getElem_of_mem h
  have high : r < c.height := by
    rw [← length_rows hc]
    exact hr
  obtain ⟨row', found', cells⟩ := exists_row hc high
  rw [List.getElem?_eq_getElem hr, found] at found'
  cases found'
  simpa using congrArg List.length cells

/-- The rows alone make a canvas. -/
theorem ext_rows (hc : c.WellFormed) (hd : d.WellFormed) (h : c.rows = d.rows) : c = d := by
  have height : c.height = d.height := by rw [← length_rows hc, ← length_rows hd, h]
  have width : c.width = d.width := by
    have first := List.head_mem (rows_ne_nil hc)
    have first' : c.rows.head (rows_ne_nil hc) ∈ d.rows := h ▸ first
    rw [← length_of_mem_rows hc first, length_of_mem_rows hd first']
  apply ext_get? hc hd width height
  intro col row _
  rw [← rows_get? hc, ← rows_get? hd, h]

end Canvas

theorem Color.ext_token {a b : Color} (h : a.token = b.token) : a = b := by
  cases a
  cases b
  cases h
  rfl

/-- No color is a line break by itself. -/
theorem Color.lineBreak_not_mem {color : Color} (single : color.token.length = 1) :
    '\n' ∉ color.token.toList := by
  intro h
  obtain ⟨c, hc⟩ := List.length_eq_one_iff.mp (String.length_toList.trans single)
  have token : color.token = "\n" := by
    rw [hc, List.mem_singleton] at h
    rw [← String.toList_inj, hc, ← h]
    rfl
  have accepted := color.accepted
  rw [token] at accepted
  exact absurd accepted (by decide +kernel)

namespace Canvas

/-- The canvases that painting can lead to. -/
inductive Built : Canvas → Prop
  | create {width height : Nat} {c : Canvas} : Canvas.create width height = .ok c → Built c
  | paint {c : Canvas} (col row : Nat) (color : Color) : Built c → Built (c.paint col row color)

theorem Built.wellFormed {c : Canvas} (h : c.Built) : c.WellFormed := by
  induction h with
  | create hc => exact create_wellFormed hc
  | paint col row color _ ih => exact paint_wellFormed ih col row color

def rowText (row : List Color) : String := String.join (row.map Color.token)

/-- The lines of a picture, from the top. -/
def picture (c : Canvas) : List String := c.rows.map rowText

theorem render_append_break {c : Canvas} (hc : c.WellFormed) :
    c.render ++ "\n" = Text.ended c.picture := by
  have some_row : c.picture ≠ [] := by
    rw [picture, ne_eq, List.map_eq_nil_iff]
    exact rows_ne_nil hc
  exact Text.intercalate_append_break some_row

theorem mem_cells_of_mem_rows {c : Canvas} (hc : c.WellFormed) {row : List Color}
    (hr : row ∈ c.rows) {color : Color} (h : color ∈ row) : color ∈ c.cells := by
  obtain ⟨r, found⟩ := List.getElem?_of_mem hr
  rw [getElem?_rows hc, Option.ite_none_right_eq_some] at found
  obtain ⟨_, part⟩ := found
  cases part
  exact Array.mem_def.mpr (List.mem_of_mem_drop (List.mem_of_mem_take h))

theorem mem_rowText {row : List Color} {ch : Char} (h : ch ∈ (rowText row).toList) :
    ∃ color ∈ row, ch ∈ color.token.toList := by
  rw [rowText, String.toList_join, List.flatMap_map] at h
  exact List.mem_flatMap.mp h

section Single

/-- Where each color is one character, a row is told from its text. -/
theorem rowText_inj {row other : List Color} (single : ∀ color ∈ row, color.token.length = 1)
    (single' : ∀ color ∈ other, color.token.length = 1) (h : rowText row = rowText other) :
    row = other := by
  have chars := congrArg String.toList h
  simp only [rowText, String.toList_join, List.flatMap_map] at chars
  clear h
  induction row generalizing other with
  | nil =>
    cases other with
    | nil => rfl
    | cons color other =>
      have one := single' color List.mem_cons_self
      rw [← String.length_toList] at one
      have lengths := congrArg List.length chars
      simp only [List.flatMap_nil, List.flatMap_cons, List.length_append, List.length_nil] at lengths
      omega
  | cons color row ih =>
    have one := single color List.mem_cons_self
    rw [← String.length_toList] at one
    cases other with
    | nil =>
      have lengths := congrArg List.length chars
      simp only [List.flatMap_nil, List.flatMap_cons, List.length_append, List.length_nil] at lengths
      omega
    | cons color' other =>
      have one' := single' color' List.mem_cons_self
      rw [← String.length_toList] at one'
      rw [List.flatMap_cons, List.flatMap_cons] at chars
      obtain ⟨first, others⟩ := List.append_inj chars (one.trans one'.symm)
      have same : color = color' := Color.ext_token (String.toList_inj.mp first)
      have rest := ih (fun k hk => single k (List.mem_cons_of_mem _ hk))
        (fun k hk => single' k (List.mem_cons_of_mem _ hk)) others
      rw [same, rest]

theorem map_rowText_inj {rows others : List (List Color)}
    (single : ∀ row ∈ rows, ∀ color ∈ row, color.token.length = 1)
    (single' : ∀ row ∈ others, ∀ color ∈ row, color.token.length = 1)
    (h : rows.map rowText = others.map rowText) : rows = others := by
  induction rows generalizing others with
  | nil => exact (List.map_eq_nil_iff.mp h.symm).symm
  | cons row rows ih =>
    obtain ⟨other, rest, hothers, first, texts⟩ := List.map_eq_cons_iff.mp h.symm
    subst hothers
    have same : other = row := rowText_inj (single' other List.mem_cons_self)
      (single row List.mem_cons_self) first
    have others := ih (fun r hr => single r (List.mem_cons_of_mem _ hr))
      (fun r hr => single' r (List.mem_cons_of_mem _ hr)) texts.symm
    rw [same, others]

variable {c d : Canvas}

theorem single_of_mem_rows (hc : c.WellFormed)
    (single : ∀ color ∈ c.cells, color.token.length = 1) :
    ∀ row ∈ c.rows, ∀ color ∈ row, color.token.length = 1 :=
  fun _ hr _ h => single _ (mem_cells_of_mem_rows hc hr h)

theorem lineBreak_not_mem_picture (hc : c.WellFormed)
    (single : ∀ color ∈ c.cells, color.token.length = 1) :
    ∀ line ∈ c.picture, '\n' ∉ line.toList := by
  intro line hl h
  obtain ⟨row, hr, rfl⟩ := List.mem_map.mp hl
  obtain ⟨color, hcolor, within⟩ := mem_rowText h
  exact Color.lineBreak_not_mem (single_of_mem_rows hc single row hr color hcolor) within

/-- Where each color is one character, a picture shows its canvas in full. -/
theorem render_inj (hc : c.WellFormed) (hd : d.WellFormed)
    (single : ∀ color ∈ c.cells, color.token.length = 1)
    (single' : ∀ color ∈ d.cells, color.token.length = 1) (h : c.render = d.render) : c = d := by
  have texts : Text.ended c.picture = Text.ended d.picture := by
    rw [← render_append_break hc, ← render_append_break hd, h]
  have lines := congrArg Text.linesOf texts
  rw [Text.linesOf_ended (lineBreak_not_mem_picture hc single),
    Text.linesOf_ended (lineBreak_not_mem_picture hd single')] at lines
  apply ext_rows hc hd
  exact map_rowText_inj (single_of_mem_rows hc single) (single_of_mem_rows hd single') lines

end Single

end Canvas

end PixelScript
