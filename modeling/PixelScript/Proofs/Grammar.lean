import PixelScript.Coordinate
import PixelScript.Fallible
import PixelScript.Line

namespace PixelScript.Line

open Coordinate

/-- A token that is a color as it stands. -/
def Colors (token : String) (color : Color) : Prop :=
  Color.parse token = .ok color ∧ color.token = token

/-- The lines that ask for a command, by key and arguments. Rows come before columns after `I`,
and a stroke names first the line that it stays on. -/
inductive Asks : String → List String → Command → Prop
  | create {h w : String} {height width : Nat} :
      Gives h height → Gives w width → Asks "I" [h, w] (.create height width)
  | clear : Asks "C" [] .clear
  | dot {a b t : String} {x y : Nat} {color : Color} :
      Gives a x → Gives b y → Colors t color → Asks "L" [a, b, t] (.dot x y color)
  | vertical {a b d t : String} {x y1 y2 : Nat} {color : Color} :
      Gives a x → Gives b y1 → Gives d y2 → Colors t color →
      Asks "V" [a, b, d, t] (.vertical x y1 y2 color)
  | horizontal {a b d t : String} {y x1 x2 : Nat} {color : Color} :
      Gives a y → Gives b x1 → Gives d x2 → Colors t color →
      Asks "H" [a, b, d, t] (.horizontal y x1 x2 color)
  | print : Asks "S" [] .print

theorem color_eq_ok_iff {verb : Verb} {token : String} {c : Color} :
    Line.color verb token = .ok c ↔ Colors token c := by
  unfold Line.color Colors
  rw [mapError_eq_ok_iff]
  constructor
  · intro h
    exact ⟨h, Color.token_of_parse h⟩
  · intro h
    exact h.1

theorem asks_of_command {line : Line} {k : Command} (h : line.command = .ok k) :
    Asks line.key line.args k := by
  unfold command at h
  cases hv : Verb.ofKey? line.key with
  | none => simp [hv] at h
  | some verb =>
    rw [← Verb.ofKey?_eq_some.mp hv]
    simp only [hv] at h
    split at h
    · next a b args =>
      rw [args]
      split at h
      · next height width ha hb =>
        cases h
        exact .create (read_eq_value_iff.mp ha) (read_eq_value_iff.mp hb)
      · cases h
    · next args =>
      cases h
      rw [args]
      exact .clear
    · next a b t args =>
      obtain ⟨color, hc, h⟩ := bind_eq_ok_iff.mp h
      rw [args]
      split at h
      · next x y ha hb =>
        cases h
        exact .dot (read_eq_value_iff.mp ha) (read_eq_value_iff.mp hb)
          (color_eq_ok_iff.mp hc)
      · cases h
    · next a b d t args =>
      obtain ⟨color, hc, h⟩ := bind_eq_ok_iff.mp h
      rw [args]
      split at h
      · next x y1 y2 ha hb hd =>
        cases h
        exact .vertical (read_eq_value_iff.mp ha) (read_eq_value_iff.mp hb)
          (read_eq_value_iff.mp hd) (color_eq_ok_iff.mp hc)
      · cases h
    · next a b d t args =>
      obtain ⟨color, hc, h⟩ := bind_eq_ok_iff.mp h
      rw [args]
      split at h
      · next y x1 x2 ha hb hd =>
        cases h
        exact .horizontal (read_eq_value_iff.mp ha) (read_eq_value_iff.mp hb)
          (read_eq_value_iff.mp hd) (color_eq_ok_iff.mp hc)
      · cases h
    · next args =>
      cases h
      rw [args]
      exact .print
    · cases h

theorem command_of_asks {line : Line} {k : Command} (h : Asks line.key line.args k) :
    line.command = .ok k := by
  obtain ⟨number, key, args⟩ := line
  unfold command
  cases h with
  | create ha hb =>
    rw [show Verb.ofKey? "I" = some .create from Verb.ofKey?_key .create]
    simp only [read_eq_value_iff.mpr ha, read_eq_value_iff.mpr hb]
  | clear =>
    rw [show Verb.ofKey? "C" = some .clear from Verb.ofKey?_key .clear]
  | dot ha hb hc =>
    rw [show Verb.ofKey? "L" = some .dot from Verb.ofKey?_key .dot]
    apply bind_eq_ok_iff.mpr
    refine ⟨_, color_eq_ok_iff.mpr hc, ?_⟩
    simp only [read_eq_value_iff.mpr ha, read_eq_value_iff.mpr hb]
  | vertical ha hb hd hc =>
    rw [show Verb.ofKey? "V" = some .vertical from Verb.ofKey?_key .vertical]
    apply bind_eq_ok_iff.mpr
    refine ⟨_, color_eq_ok_iff.mpr hc, ?_⟩
    simp only [read_eq_value_iff.mpr ha, read_eq_value_iff.mpr hb,
      read_eq_value_iff.mpr hd]
  | horizontal ha hb hd hc =>
    rw [show Verb.ofKey? "H" = some .horizontal from Verb.ofKey?_key .horizontal]
    apply bind_eq_ok_iff.mpr
    refine ⟨_, color_eq_ok_iff.mpr hc, ?_⟩
    simp only [read_eq_value_iff.mpr ha, read_eq_value_iff.mpr hb,
      read_eq_value_iff.mpr hd]
  | print =>
    rw [show Verb.ofKey? "S" = some .print from Verb.ofKey?_key .print]

/-- Exactly the lines of the grammar are accepted, each as the command that it asks for. -/
theorem check_eq_ok_iff (line : Line) (k : Command) :
    line.check = .ok k ↔ Asks line.key line.args k := by
  unfold check
  rw [mapError_eq_ok_iff]
  constructor
  · intro h
    exact asks_of_command h
  · intro h
    exact command_of_asks h

end PixelScript.Line
