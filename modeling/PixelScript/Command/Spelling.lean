import PixelScript.Command.Coverage
import PixelScript.Coordinate
import PixelScript.Text.Blank

namespace PixelScript

/-- A number in decimal, with any zeros in front, and a plus sign before them or none. -/
inductive Coordinate.Spells (n : Nat) : List Char → Prop
  | bare (zeros : Nat) : Spells n (List.replicate zeros '0' ++ Nat.toDigits 10 n)
  | plus (zeros : Nat) : Spells n ('+' :: (List.replicate zeros '0' ++ Nat.toDigits 10 n))

namespace Command

open Coordinate

/-- What a line has room for: coordinates in range, and a color without blanks. -/
structure Writable (k : Command) : Prop where
  inRange : ∀ n ∈ k.coordinates, InRange n
  unbroken : ∀ color ∈ k.color?, ∀ c ∈ color.token.toList, Text.isBlank c = false

/-- The words of a command: its key and its arguments in order. -/
inductive Words : Command → List (List Char) → Prop
  | create {height width : Nat} {h w : List Char} :
      Spells height h → Spells width w → Words (create height width) [['I'], h, w]
  | clear : Words clear [['C']]
  | dot {x y : Nat} {color : Color} {a b : List Char} :
      Spells x a → Spells y b → Words (dot x y color) [['L'], a, b, color.token.toList]
  | vertical {x y1 y2 : Nat} {color : Color} {a b d : List Char} :
      Spells x a → Spells y1 b → Spells y2 d →
      Words (vertical x y1 y2 color) [['V'], a, b, d, color.token.toList]
  | horizontal {y x1 x2 : Nat} {color : Color} {a b d : List Char} :
      Spells y a → Spells x1 b → Spells x2 d →
      Words (horizontal y x1 x2 color) [['H'], a, b, d, color.token.toList]
  | print : Words print [['S']]

/-- A line with the words of a command, however they are spread. -/
def OnLine (k : Command) (cs : List Char) : Prop :=
  ∃ ws, Words k ws ∧ Text.Spread ws cs ∧ '\n' ∉ cs

/-- The scripts of some commands. Each has a line of its own, with a line break of either kind
after it; the last line may do without. -/
inductive Scripts : List Command → List Char → Prop
  | nil : Scripts [] []
  | last {k : Command} {cs : List Char} : OnLine k cs → Scripts [k] cs
  | lineFeed {k : Command} {ks : List Command} {cs ds : List Char} :
      OnLine k cs → Scripts ks ds → Scripts (k :: ks) (cs ++ '\n' :: ds)
  | returnFeed {k : Command} {ks : List Command} {cs ds : List Char} :
      OnLine k cs → Scripts ks ds → Scripts (k :: ks) (cs ++ '\r' :: '\n' :: ds)

end Command

namespace Coordinate

theorem digits_padded (zeros n : Nat) :
    Digits (List.replicate zeros '0' ++ Nat.toDigits 10 n) := by
  constructor
  · simp [Nat.toDigits_ne_nil]
  · intro c hc
    cases List.mem_append.mp hc with
    | inl hz =>
      rw [(List.mem_replicate.mp hz).2]
      decide
    | inr hd => exact Nat.isDigit_of_mem_toDigits (by decide) (by decide) hd

/-- Zeros in front do not change a number. -/
theorem ofDigitChars_padded (zeros n : Nat) :
    Nat.ofDigitChars 10 (List.replicate zeros '0' ++ Nat.toDigits 10 n) 0 = n := by
  rw [Nat.ofDigitChars_append, Nat.ofDigitChars_replicate_zero, Nat.mul_zero,
    Nat.ofDigitChars_ten_toDigits]

theorem Spells.gives {n : Nat} {cs : List Char} (h : Spells n cs) (hn : InRange n) :
    Gives (String.ofList cs) n := by
  unfold Gives
  rw [String.toList_ofList]
  refine ⟨?_, hn⟩
  cases h with
  | bare zeros =>
    have value := Denotes.bare (digits_padded zeros n)
    rwa [ofDigitChars_padded] at value
  | plus zeros =>
    have value := Denotes.plus (digits_padded zeros n)
    rwa [ofDigitChars_padded] at value

theorem Spells.word {n : Nat} {cs : List Char} (h : Spells n cs) : Text.Word cs := by
  cases h with
  | bare zeros =>
    have hd := digits_padded zeros n
    exact ⟨hd.1, fun c hc => Text.isBlank_of_isDigit (hd.2 c hc)⟩
  | plus zeros =>
    have hd := digits_padded zeros n
    refine ⟨by simp, ?_⟩
    intro c hc
    cases List.mem_cons.mp hc with
    | inl hp =>
      subst hp
      decide
    | inr hc => exact Text.isBlank_of_isDigit (hd.2 c hc)

end Coordinate

namespace Command

theorem word_token {k : Command} (hk : k.Writable) {color : Color} (h : k.color? = some color) :
    Text.Word color.token.toList := by
  refine ⟨?_, hk.unbroken color h⟩
  intro hn
  exact color.token_ne_empty (String.toList_eq_nil_iff.mp hn)

theorem Words.word {k : Command} {ws : List (List Char)} (h : Words k ws) (hk : k.Writable) :
    ∀ w ∈ ws, Text.Word w := by
  cases h with
  | create ha hb =>
    simp only [List.forall_mem_cons]
    exact ⟨by decide, ha.word, hb.word, by simp⟩
  | clear => decide
  | dot ha hb =>
    simp only [List.forall_mem_cons]
    exact ⟨by decide, ha.word, hb.word, word_token hk rfl, by simp⟩
  | vertical ha hb hd =>
    simp only [List.forall_mem_cons]
    exact ⟨by decide, ha.word, hb.word, hd.word, word_token hk rfl, by simp⟩
  | horizontal ha hb hd =>
    simp only [List.forall_mem_cons]
    exact ⟨by decide, ha.word, hb.word, hd.word, word_token hk rfl, by simp⟩
  | print => decide

end Command

end PixelScript
