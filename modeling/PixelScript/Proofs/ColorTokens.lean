import PixelScript.Canvas
import PixelScript.Coordinate.Refused
import PixelScript.Text.Casing.Forms

namespace PixelScript.Color

open Text.Casing (TwoForms)

variable {t : String}

/-- Both texts are compared as wholes, and yet each character counts by itself. -/
theorem accepts_iff : accepts t ↔ ∃ c ∈ t.toList, TwoForms c := by
  have same := Text.Casing.upperText_eq_lowerText_iff [] t.toList
  rw [accepts, bne_iff_ne, ne_eq, same]
  simp only [Classical.not_forall, Decidable.not_not, exists_prop]

theorem exists_parse_iff : (∃ c, parse t = .ok c) ↔ accepts t := by
  constructor
  · rintro ⟨c, read⟩
    rw [← token_of_parse read]
    exact c.accepted
  · intro taken
    exact ⟨⟨t, taken⟩, parse_token ⟨t, taken⟩⟩

theorem parse_eq_error_iff {e : Error} :
    parse t = .error e ↔ ¬accepts t ∧ e = if t = "" then .empty else .notAlphabetic t := by
  unfold parse
  by_cases empty : t = ""
  · have refused : ¬accepts t := by
      rw [empty]
      decide
    simp only [empty, if_true, Except.error.injEq]
    rw [empty] at refused
    exact ⟨fun h => ⟨refused, h.symm⟩, fun h => h.2.symm⟩
  · rw [if_neg empty, if_neg empty]
    by_cases taken : accepts t
    · rw [dif_pos taken]
      exact iff_of_false (by simp) fun h => h.1 taken
    · rw [dif_neg taken, Except.error.injEq]
      exact ⟨fun h => ⟨taken, h.symm⟩, fun h => h.2.symm⟩

theorem accepts_join_iff {ts : List String} :
    accepts (String.join ts) ↔ ∃ s ∈ ts, accepts s := by
  simp only [accepts_iff, String.toList_join, List.mem_flatMap]
  constructor
  · rintro ⟨c, ⟨s, hs, hc⟩, two⟩
    exact ⟨s, hs, c, hc, two⟩
  · rintro ⟨s, hs, c, hc, two⟩
    exact ⟨c, ⟨s, hs, hc⟩, two⟩

/-- A number, with a sign or without, has no letter. -/
theorem not_accepts_of_whole (h : Coordinate.Whole t.toList) : ¬accepts t := by
  rw [accepts_iff]
  rintro ⟨c, hc, two⟩
  have low : c.toNat < 65 := by
    obtain digit | rfl | rfl := h.isDigit_or_sign c hc
    · have range := Char.isDigit_iff_toNat.mp digit
      have nine : '9'.toNat = 57 := rfl
      omega
    · decide
    · decide
  exact two (Text.Casing.upper_eq_lower_of_lt low)

/-- A token is a color exactly if one of its characters has a capital form other than its small
form, although what is compared are the forms of the whole token. -/
theorem parse_characterwise (t : String) :
    ((∃ c, parse t = .ok c ∧ c.token = t) ↔ ∃ ch ∈ t.toList, TwoForms ch) ∧
    (∀ e, parse t = .error e ↔
      (∀ ch ∈ t.toList, ¬TwoForms ch) ∧ e = if t = "" then .empty else .notAlphabetic t) ∧
    (∀ before after, (∃ c, parse t = .ok c) → ∃ c, parse (before ++ t ++ after) = .ok c) ∧
    (∀ ts : List String, (∀ s ∈ ts, ¬∃ c, parse s = .ok c) →
      ¬∃ c, parse (String.join ts) = .ok c) ∧
    (Coordinate.Whole t.toList → parse t = .error (.notAlphabetic t)) := by
  refine ⟨?_, ?_, ?_, ?_, ?_⟩
  · rw [← accepts_iff, ← exists_parse_iff]
    exact exists_congr fun c => and_iff_left_of_imp token_of_parse
  · intro e
    rw [parse_eq_error_iff, accepts_iff]
    simp only [not_exists, not_and]
  · intro before after
    simp only [exists_parse_iff, accepts_iff, String.toList_append, List.mem_append]
    rintro ⟨c, hc, two⟩
    exact ⟨c, .inl (.inr hc), two⟩
  · intro ts refused
    simp only [exists_parse_iff] at refused ⊢
    rw [accepts_join_iff]
    rintro ⟨s, hs, taken⟩
    exact refused s hs taken
  · intro whole
    have filled : t ≠ "" := by
      rintro rfl
      obtain ⟨z, denotes⟩ := whole
      exact Coordinate.not_denotes_nil z denotes
    rw [parse_eq_error_iff, if_neg filled]
    exact ⟨not_accepts_of_whole whole, rfl⟩

/-- A letter whose capital is two letters, next to a sigma that ends a word, and some that are no
letters. -/
theorem parse_characterwise_sharp_s :
    (∃ c, parse ("7" ++ "ß" ++ "Σ") = .ok c) ∧
    (¬∃ c, parse (String.join ["#", "-007", ""]) = .ok c) ∧
    Coordinate.Whole "-007".toList ∧ parse "-007" = .error (.notAlphabetic "-007") := by
  have sharp : ∃ c, parse "ß" = .ok c := exists_parse_iff.mpr (by decide +kernel)
  have refused : ∀ s ∈ ["#", "-007", ""], ¬∃ c, parse s = .ok c := by
    simp only [exists_parse_iff]
    decide +kernel
  have digits : Coordinate.Digits ['0', '0', '7'] := ⟨List.cons_ne_nil _ _, by simp⟩
  have whole : Coordinate.Whole "-007".toList := ⟨_, .minus digits⟩
  obtain ⟨_, _, longer, _, _⟩ := parse_characterwise "ß"
  obtain ⟨_, _, _, together, number⟩ := parse_characterwise "-007"
  exact ⟨longer "7" "Σ" sharp, together _ refused, whole, number whole⟩

end PixelScript.Color
