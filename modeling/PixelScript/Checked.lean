import PixelScript.Command.Sequence
import PixelScript.Fallible

namespace PixelScript

/-- What goes wrong where an operation is used outside of its range. -/
inductive Trap where
  /-- A sum or product of more than 64 bits. -/
  | overflow
  /-- A difference below 0. -/
  | underflow
  /-- An index beyond the last element. -/
  | outOfBounds
  /-- A lower bound above the upper one. -/
  | crossedBounds
  /-- Pieces of no elements. -/
  | emptyPieces
  deriving DecidableEq

namespace Checked

def add (a b : Nat) : Except Trap Nat :=
  if a + b < UInt64.size then .ok (a + b) else .error .overflow

def mul (a b : Nat) : Except Trap Nat :=
  if a * b < UInt64.size then .ok (a * b) else .error .overflow

def sub (a b : Nat) : Except Trap Nat :=
  if b ≤ a then .ok (a - b) else .error .underflow

def clamp (n low high : Nat) : Except Trap Nat :=
  if low ≤ high then .ok (max low (min n high)) else .error .crossedBounds

def load (cells : Array Color) (i : Nat) : Except Trap Color :=
  if h : i < cells.size then .ok cells[i] else .error .outOfBounds

def store (cells : Array Color) (i : Nat) (color : Color) : Except Trap (Array Color) :=
  if h : i < cells.size then .ok (cells.set i color h) else .error .outOfBounds

def pieces (n : Nat) (cells : List Color) : Except Trap (List (List Color)) :=
  if n = 0 then .error .emptyPieces else .ok (chunks n cells)

def create (width height : Nat) : Except Trap (Except Canvas.SizeError Canvas) :=
  if InRange width ∧ InRange height then do
    let size ← mul width height
    .ok (.ok ⟨width, height, Array.replicate size Color.blank⟩)
  else .ok (.error ⟨width, height⟩)

/-- The index of a cell. -/
def position (c : Canvas) (col row : Nat) : Except Trap (Option Nat) :=
  if c.Holds col row then do
    let start ← mul row c.width
    let i ← add start col
    .ok (some i)
  else .ok none

def get? (c : Canvas) (col row : Nat) : Except Trap (Option Color) := do
  match ← position c col row with
  | some i => do
    let color ← load c.cells i
    .ok (some color)
  | none => .ok none

/-- Nothing if the cell is outside of the canvas. -/
def paint (c : Canvas) (col row : Nat) (color : Color) : Except Trap (Option Canvas) := do
  match ← position c col row with
  | some i => do
    let cells ← store c.cells i color
    .ok (some { c with cells })
  | none => .ok none

def rows (c : Canvas) : Except Trap (List (List Color)) :=
  pieces c.width c.cells.toList

def render (c : Canvas) : Except Trap String := do
  let rows ← rows c
  .ok ("\n".intercalate (rows.map fun row => String.join (row.map Color.token)))

/-- A coordinate on a side of length `bound`, counted from 0. -/
def index (bound n : Nat) : Except Trap (Option Nat) :=
  if 1 ≤ n ∧ n ≤ bound then do
    let i ← sub n 1
    .ok (some i)
  else .ok none

def clip (bound n : Nat) : Except Trap Nat := do
  let nearest ← clamp n 1 bound
  sub nearest 1

/-- Paints the cell of each step from end to end. Both ends are steps, so none is computed beyond
the last. -/
def stroke (c : Canvas) (color : Color) (bound a b : Nat) (cell : Nat → Nat × Nat) :
    Except Trap Canvas :=
  (List.range' (min a b) (max a b + 1 - min a b)).foldlM (fun c n => do
    let p ← clip bound n
    let painted ← paint c (cell p).1 (cell p).2 color
    .ok (painted.getD c)) c

/-- A stroke in the line that `n` is the coordinate of, on the side of length `side`. -/
def strokeIn (c : Canvas) (color : Color) (side n bound a b : Nat)
    (cell : Nat → Nat → Nat × Nat) : Except Trap (Option Canvas) := do
  match ← index side n with
  | some i =>
    if Stroke.Meets bound a b then do
      let d ← stroke c color bound a b (cell i)
      .ok (some d)
    else .ok none
  | none => .ok none

def draw (c : Canvas) : Command → Except Trap (Option Canvas)
  | .dot x y color => do
    match ← index c.width x, ← index c.height y with
    | some col, some row => paint c col row color
    | _, _ => .ok none
  | .vertical x y1 y2 color =>
    strokeIn c color c.width x c.height y1 y2 fun col row => (col, row)
  | .horizontal y x1 x2 color =>
    strokeIn c color c.height y c.width x1 x2 fun row col => (col, row)
  | _ => .ok none

/-- A command carried out with a check before each operation that has a range. -/
def execute (canvas : Option Canvas) (command : Command) :
    Except Trap (Response × Option Canvas) :=
  match command, canvas with
  | .create height width, _ => do
    match ← create width height with
    | .ok c => .ok (.done, some c)
    | .error _ => .ok (.ignored, canvas)
  | .print, none => .ok (.noCanvas, none)
  | _, none => .ok (.ignored, none)
  | .print, some c => do
    let text ← render c
    .ok (.printed text, some c)
  | .clear, some c => .ok (.done, some c.clear)
  | command, some c => do
    match ← draw c command with
    | some c => .ok (.done, some c)
    | none => .ok (.ignored, some c)

def canvasAfter (canvas : Option Canvas) (ks : List Command) : Except Trap (Option Canvas) :=
  ks.foldlM (fun canvas k => do
    let (_, canvas) ← execute canvas k
    .ok canvas) canvas

theorem add_eq {a b : Nat} (h : a + b < UInt64.size) : add a b = .ok (a + b) := if_pos h

theorem mul_eq {a b : Nat} (h : a * b < UInt64.size) : mul a b = .ok (a * b) := if_pos h

theorem sub_eq {a b : Nat} (h : b ≤ a) : sub a b = .ok (a - b) := if_pos h

theorem clamp_eq {n low high : Nat} (h : low ≤ high) :
    clamp n low high = .ok (max low (min n high)) := if_pos h

theorem load_eq {cells : Array Color} {i : Nat} (h : i < cells.size) :
    load cells i = .ok cells[i] := dif_pos h

theorem store_eq {cells : Array Color} {i : Nat} (h : i < cells.size) (color : Color) :
    store cells i color = .ok (cells.set i color h) := dif_pos h

theorem pieces_eq {n : Nat} (h : n ≠ 0) (cells : List Color) :
    pieces n cells = .ok (chunks n cells) := if_neg h

/-- A canvas has few cells. -/
theorem mul_lt_size {width height : Nat} (hw : InRange width) (hh : InRange height) :
    width * height < UInt64.size :=
  calc width * height ≤ 250 * 250 := Nat.mul_le_mul hw.2 hh.2
    _ < UInt64.size := by decide

theorem create_eq (width height : Nat) :
    create width height = .ok (Canvas.create width height) := by
  unfold create Canvas.create
  split
  · next h => rw [mul_eq (mul_lt_size h.1 h.2), ok_bind]
  · rfl

theorem position_eq {c : Canvas} (hc : c.WellFormed) (col row : Nat) :
    position c col row =
      .ok (if c.Holds col row then some (row * c.width + col) else none) := by
  unfold position
  split
  · next h =>
    have few := mul_lt_size hc.width_inRange hc.height_inRange
    have within : row * c.width + col < UInt64.size := by
      have lt := Canvas.index_lt hc h
      rw [hc.size_cells] at lt
      omega
    rw [mul_eq (Nat.lt_of_le_of_lt (Nat.le_add_right _ _) within), ok_bind, add_eq within, ok_bind]
  · rfl

theorem get?_eq {c : Canvas} (hc : c.WellFormed) (col row : Nat) :
    get? c col row = .ok (c.get? col row) := by
  unfold get? Canvas.get?
  rw [position_eq hc, ok_bind]
  by_cases h : c.Holds col row
  · have lt := Canvas.index_lt hc h
    simp only [if_pos h]
    rw [load_eq lt, ok_bind, Array.getElem?_eq_getElem lt]
  · simp only [if_neg h]

theorem paint_eq {c : Canvas} (hc : c.WellFormed) (col row : Nat) (color : Color) :
    paint c col row color =
      .ok (if c.Holds col row then some (c.paint col row color) else none) := by
  unfold paint
  rw [position_eq hc, ok_bind]
  by_cases h : c.Holds col row
  · have lt := Canvas.index_lt hc h
    simp only [if_pos h]
    rw [store_eq lt, ok_bind, Canvas.paint_of_holds h, Array.setIfInBounds, dif_pos lt]
  · simp only [if_neg h]

theorem rows_eq {c : Canvas} (hc : c.WellFormed) : rows c = .ok c.rows :=
  pieces_eq (Nat.ne_of_gt hc.width_inRange.1) _

theorem render_eq {c : Canvas} (hc : c.WellFormed) : render c = .ok c.render := by
  rw [render, rows_eq hc, ok_bind]
  rfl

theorem index_eq (bound n : Nat) :
    index bound n = .ok (if 1 ≤ n ∧ n ≤ bound then some (n - 1) else none) := by
  unfold index
  split
  · next h => rw [sub_eq h.1, ok_bind]
  · rfl

theorem clip_eq {bound : Nat} (h : 1 ≤ bound) (n : Nat) :
    clip bound n = .ok (Stroke.clip bound n) := by
  rw [clip, clamp_eq h, ok_bind, sub_eq (Nat.le_max_left _ _), Stroke.clip]

theorem stroke_eq {c : Canvas} (hc : c.WellFormed) (color : Color) {bound : Nat} (h : 1 ≤ bound)
    (a b : Nat) (cell : Nat → Nat × Nat) :
    stroke c color bound a b cell =
      .ok (Command.paintAll c color ((Stroke.steps bound a b).map cell)) := by
  unfold stroke Stroke.steps Command.paintAll
  rw [List.foldl_map, List.foldl_map]
  -- Painting keeps the canvas well-formed, so no step can be the first to fail.
  apply foldlM_eq_ok _ _ hc
  · intro d n hd
    rw [clip_eq h, ok_bind, paint_eq hd, ok_bind]
    by_cases holds : d.Holds (cell (Stroke.clip bound n)).1 (cell (Stroke.clip bound n)).2
    · rw [if_pos holds, Option.getD_some]
    · rw [if_neg holds, Option.getD_none, Canvas.paint, if_neg holds]
  · intro d n hd
    exact Canvas.paint_wellFormed hd _ _ color

theorem strokeIn_eq {c : Canvas} (hc : c.WellFormed) (color : Color) (side n : Nat) {bound : Nat}
    (h : 1 ≤ bound) (a b : Nat) (cell : Nat → Nat → Nat × Nat) :
    strokeIn c color side n bound a b cell =
      .ok (if (1 ≤ n ∧ n ≤ side) ∧ Stroke.Meets bound a b then
        some (Command.paintAll c color ((Stroke.steps bound a b).map (cell (n - 1))))
      else none) := by
  rw [strokeIn, index_eq, ok_bind]
  by_cases inside : 1 ≤ n ∧ n ≤ side
  · simp only [if_pos inside]
    rw [stroke_eq hc color h, ok_bind]
    by_cases meets : Stroke.Meets bound a b
    · rw [if_pos meets, if_pos ⟨inside, meets⟩]
    · rw [if_neg meets, if_neg (meets ·.2)]
  · simp only [if_neg inside, if_neg fun h : _ ∧ _ => inside h.1]

theorem draw_eq {c : Canvas} (hc : c.WellFormed) (k : Command) : draw c k = .ok (k.draw c) := by
  cases k with
  | dot x y color =>
    rw [draw, index_eq, ok_bind, index_eq, ok_bind, Command.draw]
    by_cases hx : 1 ≤ x ∧ x ≤ c.width
    · by_cases hy : 1 ≤ y ∧ y ≤ c.height
      · have holds : c.Holds (x - 1) (y - 1) := by
          unfold Canvas.Holds
          omega
        simp only [if_pos hx, if_pos hy, if_pos (And.intro hx hy)]
        rw [paint_eq hc, if_pos holds]
        rfl
      · simp only [if_pos hx, if_neg hy, if_neg fun h : _ ∧ _ => hy h.2]
    · simp only [if_neg hx, if_neg fun h : _ ∧ _ => hx h.1]
  | vertical x y1 y2 color =>
    rw [Command.draw_eq_drawBySteps hc, draw, strokeIn_eq hc color _ _ hc.height_inRange.1]
    rfl
  | horizontal y x1 x2 color =>
    rw [Command.draw_eq_drawBySteps hc, draw, strokeIn_eq hc color _ _ hc.width_inRange.1]
    rfl
  | create _ _ => rfl
  | clear => rfl
  | print => rfl

/-- On a well-formed canvas every check of a command passes. -/
theorem execute_eq {canvas : Option Canvas} (hc : ∀ c, canvas = some c → c.WellFormed)
    (k : Command) : execute canvas k = .ok (k.execute canvas) := by
  cases k with
  | create height width =>
    rw [execute, create_eq, ok_bind, Command.execute]
    cases Canvas.create width height with
    | ok c => rfl
    | error e => rfl
  | clear => cases canvas <;> rfl
  | print =>
    cases canvas with
    | none => rfl
    | some c =>
      rw [execute, render_eq (hc c rfl), ok_bind]
      rfl
  | dot _ _ _ | vertical _ _ _ _ | horizontal _ _ _ _ =>
    cases canvas with
    | none => rfl
    | some c =>
      simp only [execute, draw_eq (hc c rfl), ok_bind, Command.execute]
      generalize Command.draw c _ = drawn
      cases drawn with
      | none => rfl
      | some d => rfl

/-- On a canvas with no columns the rows cannot be cut. -/
example : execute (some ⟨0, 1, #[]⟩) .print = .error .emptyPieces := rfl

theorem canvasAfter_eq {canvas : Option Canvas} (hc : ∀ c, canvas = some c → c.WellFormed)
    (ks : List Command) : canvasAfter canvas ks = .ok (Command.canvasAfter canvas ks) := by
  unfold canvasAfter Command.canvasAfter
  apply foldlM_eq_ok _ _ (P := fun canvas => ∀ c, canvas = some c → c.WellFormed) hc
  · intro canvas k hc
    rw [execute_eq hc, ok_bind]
  · intro canvas k hc d hd
    exact Command.execute_wellFormed hc hd

end Checked

end PixelScript
