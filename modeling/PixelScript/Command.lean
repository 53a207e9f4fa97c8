import PixelScript.Canvas

namespace PixelScript

/-- What a line asks for. -/
inductive Verb where
  | create
  | clear
  | dot
  | vertical
  | horizontal
  | print
  deriving DecidableEq

namespace Verb

def all : List Verb := [create, clear, dot, vertical, horizontal, print]

def key : Verb → String
  | create => "I"
  | clear => "C"
  | dot => "L"
  | vertical => "V"
  | horizontal => "H"
  | print => "S"

def ofKey? (key : String) : Option Verb :=
  all.find? (·.key = key)

def arity : Verb → Nat
  | create => 2
  | dot => 3
  | vertical | horizontal => 4
  | clear | print => 0

theorem ofKey?_key (v : Verb) : ofKey? v.key = some v := by cases v <;> decide

theorem ofKey?_eq_some {key : String} {v : Verb} : ofKey? key = some v ↔ v.key = key := by
  constructor
  · intro h
    simpa using List.find?_some h
  · rintro rfl
    exact ofKey?_key v

end Verb

namespace Stroke

/-- A coordinate moved to the nearest one in `1..bound`, counted from 0. -/
def clip (bound n : Nat) : Nat := max 1 (min n bound) - 1

/-- A stroke between two coordinates is drawn if one of them is on the canvas and none is 0. -/
def Meets (bound a b : Nat) : Prop := a ≠ 0 ∧ b ≠ 0 ∧ (a ≤ bound ∨ b ≤ bound)

instance (bound a b : Nat) : Decidable (Meets bound a b) := inferInstanceAs (Decidable (_ ∧ _))

/-- Which means that it passes over a place on the canvas. -/
theorem meets_iff {bound a b : Nat} :
    Meets bound a b ↔ ∃ p, p < bound ∧ 1 ≤ min a b ∧ min a b ≤ p + 1 ∧ p + 1 ≤ max a b := by
  unfold Meets
  constructor
  · intro h
    exact ⟨min a b - 1, by omega⟩
  · rintro ⟨p, h⟩
    omega

/-- The places, counted from 0, that the steps of a stroke reach after each is clipped. -/
def places (bound a b : Nat) : List Nat :=
  let first := clip bound (min a b)
  List.range' first (clip bound (max a b) + 1 - first)

/-- A stroke step by step: each coordinate from end to end, clipped by itself. -/
def steps (bound a b : Nat) : List Nat :=
  (List.range' (min a b) (max a b + 1 - min a b)).map (clip bound)

/-- Clipping the ends gives the same places as clipping each step in between. -/
theorem mem_places {bound a b p : Nat} : p ∈ places bound a b ↔ p ∈ steps bound a b := by
  have hab : min a b ≤ max a b := by omega
  unfold places steps
  rw [List.mem_range'_1, List.mem_map]
  simp only [List.mem_range'_1]
  generalize min a b = lo at *
  generalize max a b = hi at *
  unfold clip
  constructor
  · intro h
    exact ⟨max lo (min hi (p + 1)), by omega, by omega⟩
  · intro h
    obtain ⟨n, hn, hp⟩ := h
    omega

/-- Clipping adds no place: those reached are those on the canvas between the ends. -/
theorem mem_places_of_meets {bound a b p : Nat} (h : Meets bound a b) :
    p ∈ places bound a b ↔ p < bound ∧ min a b ≤ p + 1 ∧ p + 1 ≤ max a b := by
  obtain ⟨ha, hb, h⟩ := h
  unfold places clip
  rw [List.mem_range'_1]
  omega

/-- So no step lands on an edge that the stroke does not reach. -/
theorem mem_steps_of_meets {bound a b p : Nat} (h : Meets bound a b) :
    p ∈ steps bound a b ↔ p < bound ∧ min a b ≤ p + 1 ∧ p + 1 ≤ max a b := by
  rw [← mem_places]
  exact mem_places_of_meets h

end Stroke

/-- Coordinates count from 1; `x` is a column and `y` a row. -/
inductive Command where
  | create (height width : Nat)
  | clear
  | dot (x y : Nat) (color : Color)
  | vertical (x y1 y2 : Nat) (color : Color)
  | horizontal (y x1 x2 : Nat) (color : Color)
  | print
  deriving DecidableEq

/-- What came of a command. -/
inductive Response where
  | done
  | ignored
  | printed (text : String)
  | noCanvas
  deriving DecidableEq

namespace Command

/-- The cells of `places` take the color one after the other. -/
def paintAll (c : Canvas) (color : Color) (places : List (Nat × Nat)) : Canvas :=
  places.foldl (fun c p => c.paint p.1 p.2 color) c

def draw (c : Canvas) : Command → Option Canvas
  | dot x y color =>
    if (1 ≤ x ∧ x ≤ c.width) ∧ 1 ≤ y ∧ y ≤ c.height then
      some (paintAll c color [(x - 1, y - 1)])
    else none
  | vertical x y1 y2 color =>
    if (1 ≤ x ∧ x ≤ c.width) ∧ Stroke.Meets c.height y1 y2 then
      some (paintAll c color ((Stroke.places c.height y1 y2).map (x - 1, ·)))
    else none
  | horizontal y x1 x2 color =>
    if (1 ≤ y ∧ y ≤ c.height) ∧ Stroke.Meets c.width x1 x2 then
      some (paintAll c color ((Stroke.places c.width x1 x2).map (·, y - 1)))
    else none
  | _ => none

/-- A command that cannot be carried out leaves the canvas, or its absence, as it is. -/
def execute (canvas : Option Canvas) (command : Command) : Response × Option Canvas :=
  match command, canvas with
  | create height width, _ =>
    match Canvas.create width height with
    | .ok c => (.done, some c)
    | .error _ => (.ignored, canvas)
  | print, none => (.noCanvas, none)
  | _, none => (.ignored, none)
  | print, some c => (.printed c.render, some c)
  | clear, some c => (.done, some c.clear)
  | command, some c =>
    match draw c command with
    | some c => (.done, some c)
    | none => (.ignored, some c)

end Command

end PixelScript
