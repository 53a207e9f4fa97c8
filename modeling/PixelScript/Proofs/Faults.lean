import Mathlib.Order.WellFounded
import PixelScript.Coordinate.Refused
import PixelScript.Fallible
import PixelScript.Line.Faults

namespace PixelScript.Line

variable {line : Line} {verb : Verb}

/-- Of the faults that a line has, one comes first. -/
theorem exists_first {fault : Fault} (h : line.Has fault) :
    ∃ first, line.Has first ∧ ∀ other, line.Has other → first.issue.rank ≤ other.issue.rank := by
  obtain ⟨first, has, least⟩ :=
    (measure fun fault : Fault => fault.issue.rank).wf.has_min {f | line.Has f} ⟨fault, h⟩
  exact ⟨first, has, fun other h => Nat.le_of_not_lt (least other h)⟩

theorem exists_command_iff : (∃ k, line.command = .ok k) ↔ ∀ fault, ¬line.Has fault := by
  constructor
  · rintro ⟨k, taken⟩ fault h
    obtain ⟨first, has, least⟩ := exists_first h
    rw [command_of_first has least] at taken
    cases taken
  · exact exists_command_of_sound

theorem command_eq_error_iff {fault : Fault} :
    line.command = .error fault ↔
      line.Has fault ∧ ∀ other, line.Has other → fault.issue.rank ≤ other.issue.rank := by
  constructor
  · intro refused
    by_cases sound : ∀ fault, ¬line.Has fault
    · obtain ⟨k, taken⟩ := exists_command_iff.mpr sound
      rw [taken] at refused
      cases refused
    · obtain ⟨_, h⟩ := Classical.not_forall_not.mp sound
      obtain ⟨first, has, least⟩ := exists_first h
      rw [command_of_first has least] at refused
      cases refused
      exact ⟨has, least⟩
  · rintro ⟨has, least⟩
    exact command_of_first has least

/-- The order of the coordinates makes no difference to what a line has at fault. -/
theorem has_replaceFirst_iff {moved : List String} (hv : verb.key = line.key)
    (ha : line.args.length = verb.arity) (perm : moved.Perm (line.coordinates verb))
    (fault : Fault) : (line.replaceFirst moved).Has fault ↔ line.Has fault := by
  have ht : moved.length = verb.coordinates := perm.length_eq.trans (length_coordinates ha)
  have color : (line.replaceFirst moved).colorToken? verb = line.colorToken? verb :=
    colorToken?_replaceFirst ht
  have coordinates (token : String) :
      token ∈ (line.replaceFirst moved).coordinates verb ↔ token ∈ line.coordinates verb := by
    rw [coordinates_replaceFirst ht]
    exact perm.mem_iff
  have arity := length_replaceFirst ha ht
  constructor
  · intro h
    exact h.transfer hv arity rfl color.symm fun token => (coordinates token).mp
  · intro h
    exact h.transfer hv ha rfl color fun token => (coordinates token).mpr

/-- A line without faults is a command. Any other is rejected for the first of its faults, and the
order of its coordinates makes no difference to the report. -/
theorem check_first_fault (line : Line) :
    ((∃ k, line.check = .ok k) ↔ ∀ fault, ¬line.Has fault) ∧
    (∀ r, line.check = .error r ↔ ∃ fault, line.Has fault ∧
      (∀ other, line.Has other → fault.issue.rank ≤ other.issue.rank) ∧
      r = ⟨line.number, fault.issue, fault.message⟩) ∧
    ∀ (verb : Verb) (r : Report) (moved : List String), verb.key = line.key →
      line.args.length = verb.arity → line.check = .error r →
      moved.Perm (line.coordinates verb) →
      (line.replaceFirst moved).check = .error r := by
  refine ⟨?_, ?_, ?_⟩
  · unfold check
    simp only [mapError_eq_ok_iff]
    exact exists_command_iff
  · intro r
    unfold check
    rw [mapError_eq_error_iff]
    constructor
    · rintro ⟨fault, refused, rfl⟩
      obtain ⟨has, least⟩ := command_eq_error_iff.mp refused
      exact ⟨fault, has, least, rfl⟩
    · rintro ⟨fault, has, least, rfl⟩
      exact ⟨fault, command_eq_error_iff.mpr ⟨has, least⟩, rfl⟩
  · intro verb r moved hv ha refused perm
    obtain ⟨fault, first, rfl⟩ := mapError_eq_error_iff.mp refused
    refine mapError_eq_error_iff.mpr ⟨fault, ?_, rfl⟩
    rw [command_eq_error_iff] at first ⊢
    simp only [has_replaceFirst_iff hv ha perm]
    exact first

/-- Three coordinates are at fault, in three ways, and one of them is not numeric. -/
theorem check_first_fault_three_coordinates :
    let line : Line := ⟨7, "H", ["999", "1x", "99999999999999999999", "A"]⟩
    let moved : List String := ["99999999999999999999", "999", "1x"]
    let r : Report :=
      ⟨7, .notNumeric, "Command key H requires all coordinate parameters to be numeric"⟩
    (Verb.horizontal.key = line.key ∧ line.args.length = Verb.horizontal.arity ∧
      line.check = .error r ∧ moved.Perm (line.coordinates .horizontal)) ∧
    (line.replaceFirst moved).check = .error r := by
  intro line moved r
  have refused : line.check = .error r := rfl
  have perm : moved.Perm (line.coordinates .horizontal) := by decide +kernel
  exact ⟨⟨rfl, rfl, refused, perm⟩,
    (check_first_fault line).2.2 .horizontal r moved rfl rfl refused perm⟩

open Coordinate

/-- The line is rejected for a fault of this class. -/
def Reports (line : Line) (issue : Issue) : Prop := ∃ r, line.check = .error r ∧ r.issue = issue

theorem reports_iff {issue : Issue} :
    line.Reports issue ↔ ∃ fault, line.command = .error fault ∧ fault.issue = issue := by
  unfold Reports check
  simp only [mapError_eq_error_iff]
  constructor
  · rintro ⟨_, ⟨fault, refused, rfl⟩, same⟩
    exact ⟨fault, refused, same⟩
  · rintro ⟨fault, refused, same⟩
    exact ⟨_, ⟨fault, refused, rfl⟩, same⟩

section Colored

variable (hv : verb.key = line.key) (ha : line.args.length = verb.arity)
  (colored : ∀ token ∈ line.colorToken? verb, ∃ color, Color.parse token = .ok color)

include hv ha colored

/-- With its color accepted, a line is rejected for its coordinates or not at all. -/
theorem reports_iff_of_colored {issue : Issue} :
    line.Reports issue ↔ Faulty ((line.coordinates verb).map read) ∧
      (coordinateFault verb ((line.coordinates verb).map read)).issue = issue := by
  rw [reports_iff]
  obtain ⟨⟨token, ht, refused⟩, _⟩ | ⟨_, ⟨faulty, refused⟩ | ⟨sound, _, taken⟩⟩ :=
    command_settled hv ha
  · obtain ⟨color, accepted⟩ := colored token ht
    exact absurd accepted (refused color)
  · simp only [refused, Except.error.injEq, exists_eq_left']
    exact (and_iff_right faulty).symm
  · rw [taken]
    refine iff_of_false ?_ fun h => sound h.1
    rintro ⟨_, refused, _⟩
    cases refused

theorem reports_notNumeric_iff :
    line.Reports .notNumeric ↔
      ∃ token ∈ line.coordinates verb, ¬Whole token.toList ∧ ¬Overflows token.toList := by
  rw [reports_iff_of_colored hv ha colored]
  simp only [← read_eq_notNumeric_iff, ← List.mem_map]
  unfold Faulty coordinateFault
  split
  · next found => exact iff_of_true ⟨.inl found, rfl⟩ found
  · next missing =>
    refine iff_of_false ?_ missing
    rintro ⟨_, same⟩
    cases same

theorem reports_outOfRange_iff :
    line.Reports .outOfRange ↔
      (∀ token ∈ line.coordinates verb, Whole token.toList ∨ Overflows token.toList) ∧
      ∃ token ∈ line.coordinates verb, Overflows token.toList ∨
        ∃ z, Denotes token.toList z ∧ ¬(1 ≤ z ∧ z ≤ 250) := by
  have numeric : (∀ token ∈ line.coordinates verb, Whole token.toList ∨ Overflows token.toList) ↔
      .notNumeric ∉ (line.coordinates verb).map read := by
    simp only [List.mem_map, read_eq_notNumeric_iff, not_exists, not_and, ← not_or,
      Classical.not_not]
  rw [reports_iff_of_colored hv ha colored, numeric]
  simp only [← read_eq_outOfRange_iff, ← List.mem_map]
  unfold Faulty coordinateFault
  split
  · next found =>
    refine iff_of_false ?_ fun h => h.1 found
    rintro ⟨_, same⟩
    cases same
  · next missing =>
    rw [or_iff_right missing, and_iff_right missing]
    exact and_iff_left rfl

end Colored

/-- A token that begins with an integer beyond 64 bits counts as out of range. Whole integers decide
the same exactly if each such token is an integer, or there is another word besides. -/
theorem check_coordinates (hv : verb.key = line.key) (ha : line.args.length = verb.arity)
    (colored : ∀ token ∈ line.colorToken? verb, ∃ color, Color.parse token = .ok color) :
    let whole := fun token : String => Whole token.toList
    let overflows := fun token : String => Overflows token.toList
    let outside := fun token : String => ∃ z, Denotes token.toList z ∧ ¬(1 ≤ z ∧ z ≤ 250)
    let tokens := line.coordinates verb
    (line.Reports .notNumeric ↔ ∃ t ∈ tokens, ¬whole t ∧ ¬overflows t) ∧
    (line.Reports .outOfRange ↔
      (∀ t ∈ tokens, whole t ∨ overflows t) ∧ ∃ t ∈ tokens, overflows t ∨ outside t) ∧
    ((line.Reports .notNumeric ↔ ∃ t ∈ tokens, ¬whole t) ∧
      (line.Reports .outOfRange ↔ (∀ t ∈ tokens, whole t) ∧ ∃ t ∈ tokens, outside t) ↔
      (∀ t ∈ tokens, overflows t → whole t) ∨ ∃ t ∈ tokens, ¬whole t ∧ ¬overflows t) := by
  intro whole overflows outside tokens
  have numeric : line.Reports .notNumeric ↔ ∃ t ∈ tokens, ¬whole t ∧ ¬overflows t :=
    reports_notNumeric_iff hv ha colored
  have range : line.Reports .outOfRange ↔
      (∀ t ∈ tokens, whole t ∨ overflows t) ∧ ∃ t ∈ tokens, overflows t ∨ outside t :=
    reports_outOfRange_iff hv ha colored
  refine ⟨numeric, range, ?_⟩
  rw [numeric, range]
  constructor
  · rintro ⟨same, _⟩
    by_cases all : ∀ t ∈ tokens, overflows t → whole t
    · exact .inl all
    · obtain ⟨t, h⟩ := Classical.not_forall.mp all
      obtain ⟨ht, h⟩ := Classical.not_imp.mp h
      exact .inr (same.mpr ⟨t, ht, (Classical.not_imp.mp h).2⟩)
  · rintro (all | ⟨t, ht, word, small⟩)
    · have integer (t : String) (ht : t ∈ tokens) : whole t ∨ overflows t ↔ whole t :=
        or_iff_left_of_imp (all t ht)
      have beyond (t : String) (ht : t ∈ tokens) : overflows t ∨ outside t ↔ outside t :=
        or_iff_right_of_imp fun h => h.outside (all t ht h)
      refine ⟨exists_congr fun t => and_congr_right fun ht => ?_, and_congr ?_ ?_⟩
      · rw [← not_or, integer t ht]
      · exact forall₂_congr integer
      · exact exists_congr fun t => and_congr_right (beyond t)
    · refine ⟨iff_of_true ⟨t, ht, word, small⟩ ⟨t, ht, word⟩, iff_of_false ?_ ?_⟩
      · rintro ⟨integers, _⟩
        exact (integers t ht).elim word small
      · rintro ⟨integers, _⟩
        exact word (integers t ht)

/-- Two integers of any size and a word. -/
theorem check_coordinates_word :
    let line : Line := ⟨3, "V", ["-99999999999999999999", "+007", "1x", "A"]⟩
    (Verb.vertical.key = line.key ∧ line.args.length = Verb.vertical.arity ∧
      ∀ token ∈ line.colorToken? .vertical, ∃ color, Color.parse token = .ok color) ∧
    line.Reports .notNumeric ∧ ¬line.Reports .outOfRange := by
  intro line
  have colored : ∀ token ∈ line.colorToken? .vertical, ∃ color, Color.parse token = .ok color := by
    intro token ht
    cases ht
    exact ⟨_, rfl⟩
  have word := read_eq_notNumeric_iff.mp (show read "1x" = .notNumeric by decide +kernel)
  have mem : "1x" ∈ line.coordinates .vertical := by decide
  obtain ⟨numeric, range, _⟩ := @check_coordinates line .vertical rfl rfl colored
  refine ⟨⟨rfl, rfl, colored⟩, numeric.mpr ⟨_, mem, word⟩, fun h => ?_⟩
  exact ((range.mp h).1 _ mem).elim word.1 word.2

/-- A word counts as out of range, and not as a word, if digits enough stand in front. -/
theorem check_takes_word_for_number :
    let line : Line := ⟨1, "I", ["99999999999999999999x", "5"]⟩
    line.key = Verb.create.key ∧ line.args.length = Verb.create.arity ∧
    "99999999999999999999x" ∈ line.coordinates .create ∧
    ¬Whole "99999999999999999999x".toList ∧
    line.check = .error ⟨1, .outOfRange, "Pixels value out of valid range"⟩ ∧
    Line.check ⟨1, "I", ["999999999999999999x", "5"]⟩ =
      .error ⟨1, .notNumeric, "Command key I requires all parameters to be numeric"⟩ := by
  intro line
  have word : ¬Whole "99999999999999999999x".toList := by
    intro whole
    exact absurd (whole.isDigit_or_sign 'x' (by decide +kernel)) (by decide)
  exact ⟨rfl, rfl, by decide, word, rfl, rfl⟩

end PixelScript.Line
