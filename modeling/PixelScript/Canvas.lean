import PixelScript.Text.Casing

namespace PixelScript

/-- A text has a letter with case exactly if its capitals differ from its small letters. -/
def Color.accepts (token : String) : Bool :=
  Text.Casing.upperText token.toList != Text.Casing.lowerText [] token.toList

/-- What fills a cell: a token of any length with at least one letter that has case. -/
structure Color where
  token : String
  accepted : Color.accepts token
  deriving DecidableEq

inductive Color.Error where
  | empty
  | notAlphabetic (token : String)
  deriving DecidableEq

namespace Color

def Error.message : Error → String
  | .empty => "empty color token"
  | .notAlphabetic token => s!"color token '{token}' has no alphabetic character"

def parse (token : String) : Except Error Color :=
  if token = "" then .error .empty
  else if h : accepts token then .ok ⟨token, h⟩
  else .error (.notAlphabetic token)

/-- The color of a cell that nothing has painted. -/
def blank : Color := ⟨"O", by decide +kernel⟩

theorem token_ne_empty (c : Color) : c.token ≠ "" := by
  intro h
  have := c.accepted
  rw [h] at this
  exact absurd this (by decide)

theorem parse_token (c : Color) : parse c.token = .ok c := by
  simp [parse, c.token_ne_empty, c.accepted]

theorem token_of_parse {t : String} {c : Color} (h : parse t = .ok c) : c.token = t := by
  unfold parse at h
  split at h
  · cases h
  · split at h
    · cases h; rfl
    · cases h

end Color

/-- The cells of a picture, row by row from the top. -/
structure Canvas where
  width : Nat
  height : Nat
  cells : Array Color
  deriving DecidableEq

/-- Sides and coordinates run from 1 to 250. -/
def InRange (n : Nat) : Prop := 1 ≤ n ∧ n ≤ 250

instance (n : Nat) : Decidable (InRange n) := inferInstanceAs (Decidable (_ ∧ _))

/-- The sides of a canvas that cannot be made. -/
structure Canvas.SizeError where
  width : Nat
  height : Nat
  deriving DecidableEq

/-- Pieces of `n` elements; the last may be shorter. A piece has at least one element. -/
def chunks {α : Type _} (n : Nat) : List α → List (List α)
  | [] => []
  | a :: as => (a :: as.take (n - 1)) :: chunks n (as.drop (n - 1))
termination_by as => as.length
decreasing_by simp only [List.length_drop, List.length_cons]; omega

namespace Canvas

def SizeError.message (e : SizeError) : String :=
  s!"grid size {e.width}x{e.height} outside 1..=250"

structure WellFormed (c : Canvas) : Prop where
  width_inRange : InRange c.width
  height_inRange : InRange c.height
  size_cells : c.cells.size = c.width * c.height

def create (width height : Nat) : Except SizeError Canvas :=
  if InRange width ∧ InRange height then
    .ok ⟨width, height, Array.replicate (width * height) Color.blank⟩
  else .error ⟨width, height⟩

/-- Columns and rows count from 0. -/
def Holds (c : Canvas) (col row : Nat) : Prop := col < c.width ∧ row < c.height

instance (c : Canvas) (col row : Nat) : Decidable (c.Holds col row) :=
  inferInstanceAs (Decidable (_ ∧ _))

def get? (c : Canvas) (col row : Nat) : Option Color :=
  if c.Holds col row then c.cells[row * c.width + col]? else none

/-- A cell outside of the canvas takes no color. -/
def paint (c : Canvas) (col row : Nat) (color : Color) : Canvas :=
  if c.Holds col row then
    { c with cells := c.cells.setIfInBounds (row * c.width + col) color }
  else c

def clear (c : Canvas) : Canvas :=
  { c with cells := c.cells.map fun _ => Color.blank }

def rows (c : Canvas) : List (List Color) :=
  chunks c.width c.cells.toList

/-- The tokens of each row without a gap, and a line break between rows. -/
def render (c : Canvas) : String :=
  "\n".intercalate (c.rows.map fun row => String.join (row.map Color.token))

theorem create_wellFormed {w h : Nat} {c : Canvas} (hc : create w h = .ok c) : c.WellFormed := by
  unfold create at hc
  split at hc
  · next hr => cases hc; exact ⟨hr.1, hr.2, by simp⟩
  · cases hc

theorem paint_wellFormed {c : Canvas} (hc : c.WellFormed) (col row : Nat) (color : Color) :
    (c.paint col row color).WellFormed := by
  unfold paint
  split
  · exact ⟨hc.width_inRange, hc.height_inRange, by simp [hc.size_cells]⟩
  · exact hc

theorem clear_wellFormed {c : Canvas} (hc : c.WellFormed) : c.clear.WellFormed :=
  ⟨hc.width_inRange, hc.height_inRange, by simp [clear, hc.size_cells]⟩

@[simp] theorem paint_width (c : Canvas) (col row : Nat) (color : Color) :
    (c.paint col row color).width = c.width := by
  unfold paint; split <;> rfl

@[simp] theorem paint_height (c : Canvas) (col row : Nat) (color : Color) :
    (c.paint col row color).height = c.height := by
  unfold paint; split <;> rfl

theorem index_lt {c : Canvas} (hc : c.WellFormed) {col row : Nat} (h : c.Holds col row) :
    row * c.width + col < c.cells.size := by
  rw [hc.size_cells, Nat.mul_comm c.width]
  calc row * c.width + col < (row + 1) * c.width := by rw [Nat.succ_mul]; have := h.1; omega
    _ ≤ c.height * c.width := Nat.mul_le_mul_right _ h.2

theorem index_inj {w col row i j : Nat} (hc : col < w) (hi : i < w)
    (h : row * w + col = j * w + i) : col = i ∧ row = j := by
  have hm := congrArg (· % w) h
  simp only [Nat.mul_add_mod_self_right, Nat.mod_eq_of_lt hc, Nat.mod_eq_of_lt hi] at hm
  subst hm
  exact ⟨rfl, Nat.eq_of_mul_eq_mul_right (by omega) (Nat.add_right_cancel h)⟩

@[simp] theorem holds_paint (c : Canvas) (col row : Nat) (color : Color) (i j : Nat) :
    (c.paint col row color).Holds i j ↔ c.Holds i j := by simp [Holds]

theorem paint_of_holds {c : Canvas} {col row : Nat} (h : c.Holds col row) (color : Color) :
    c.paint col row color =
      ⟨c.width, c.height, c.cells.setIfInBounds (row * c.width + col) color⟩ := by
  simp [paint, h]

theorem get?_paint {c : Canvas} (hc : c.WellFormed) (col row : Nat) (color : Color) (i j : Nat) :
    (c.paint col row color).get? i j =
      if c.Holds i j ∧ col = i ∧ row = j then some color else c.get? i j := by
  simp only [get?, holds_paint, paint_width]
  by_cases hij : c.Holds i j
  · simp only [hij, if_true, true_and]
    by_cases hp : c.Holds col row
    · rw [paint_of_holds hp]
      split
      · next same =>
        obtain ⟨rfl, rfl⟩ := same
        simp [index_lt hc hp]
      · next same =>
        have ne : row * c.width + col ≠ j * c.width + i := fun h =>
          same (index_inj hp.1 hij.1 h)
        simp [Array.getElem?_setIfInBounds_ne ne]
    · have ne : ¬(col = i ∧ row = j) := by rintro ⟨rfl, rfl⟩; exact hp hij
      simp [paint, hp, ne]
  · simp [hij]

theorem get?_of_holds {c : Canvas} {col row : Nat} (h : c.Holds col row) :
    c.get? col row = c.cells[row * c.width + col]? := by
  simp [get?, h]

theorem isSome_get? {c : Canvas} (hc : c.WellFormed) {col row : Nat} :
    (c.get? col row).isSome ↔ c.Holds col row := by
  by_cases h : c.Holds col row
  · simp [get?_of_holds h, index_lt hc h, h]
  · simp [get?, h]

theorem get?_create {w h : Nat} {c : Canvas} (hc : create w h = .ok c) (col row : Nat) :
    c.get? col row = if c.Holds col row then some Color.blank else none := by
  have wf := create_wellFormed hc
  split
  · next hh =>
    have lt := index_lt wf hh
    rw [get?_of_holds hh]
    unfold create at hc
    split at hc
    · cases hc
      simpa [Array.getElem?_replicate] using lt
    · cases hc
  · next hh => simp [get?, hh]

theorem get?_clear {c : Canvas} (hc : c.WellFormed) (col row : Nat) :
    c.clear.get? col row = if c.Holds col row then some Color.blank else none := by
  by_cases h : c.Holds col row
  · have hh : c.clear.Holds col row := h
    rw [get?_of_holds hh, if_pos h]
    simp [clear, index_lt hc h]
  · have hh : ¬c.clear.Holds col row := h
    simp [get?, h, hh]

/-- Nothing but its sides and what its cells hold makes a canvas. -/
theorem ext_get? {c d : Canvas} (hc : c.WellFormed) (hd : d.WellFormed)
    (hw : c.width = d.width) (hh : c.height = d.height)
    (h : ∀ col row, c.Holds col row → c.get? col row = d.get? col row) : c = d := by
  have size : c.cells.size = d.cells.size := by rw [hc.size_cells, hd.size_cells, hw, hh]
  have cells : c.cells = d.cells := by
    apply Array.ext_getElem?
    intro i
    by_cases hi : i < c.cells.size
    · have wpos : 0 < c.width := hc.width_inRange.1
      have holds : c.Holds (i % c.width) (i / c.width) := by
        refine ⟨Nat.mod_lt i wpos, ?_⟩
        rw [hc.size_cells] at hi
        exact Nat.div_lt_of_lt_mul hi
      have same := h _ _ holds
      have holds' : d.Holds (i % c.width) (i / c.width) := by
        simpa only [Holds, hw, hh] using holds
      rw [get?_of_holds holds, get?_of_holds holds', ← hw, Nat.div_add_mod'] at same
      exact same
    · rw [Array.getElem?_eq_none (by omega), Array.getElem?_eq_none (by omega)]
  cases c
  cases d
  simp_all

end Canvas

end PixelScript
