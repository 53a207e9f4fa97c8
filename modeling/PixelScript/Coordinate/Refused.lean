import PixelScript.Coordinate

namespace PixelScript.Coordinate

/-- An integer of any size stands in the whole token. -/
def Whole (cs : List Char) : Prop := ∃ z, Denotes cs z

/-- An integer beyond 64 bits stands at the start of the token, whatever follows it. -/
def Overflows (cs : List Char) : Prop :=
  ∃ start z, start <+: cs ∧ Denotes start z ∧ ¬(-0x8000000000000000 ≤ z ∧ z ≤ 0x7FFFFFFFFFFFFFFF)

/-- Digits at the start of `cs` stand for a number beyond the bound. -/
def Exceeds (bound : Nat) (cs : List Char) : Prop :=
  ∃ ds, ds <+: cs ∧ Digits ds ∧ bound < Nat.ofDigitChars 10 ds 0

/-- The scan stops at the first digit with which the number is beyond the bound. It never gets to
what stands behind. -/
theorem scan_eq_outOfRange_iff {bound value : Nat} {cs : List Char} (hv : value ≤ bound) :
    scan bound value cs = .outOfRange ↔
      ∃ ds, ds <+: cs ∧ (∀ c ∈ ds, c.isDigit) ∧ bound < Nat.ofDigitChars 10 ds value := by
  induction cs generalizing value with
  | nil =>
    simp only [scan, List.prefix_nil, exists_eq_left, Nat.ofDigitChars_nil]
    constructor
    · intro h
      cases h
    · intro h
      omega
  | cons c cs ih =>
    have longer : (∃ ds, ds <+: c :: cs ∧ (∀ d ∈ ds, d.isDigit) ∧
        bound < Nat.ofDigitChars 10 ds value) ↔
        c.isDigit ∧ ∃ ds, ds <+: cs ∧ (∀ d ∈ ds, d.isDigit) ∧
          bound < Nat.ofDigitChars 10 ds (10 * value + (c.toNat - '0'.toNat)) := by
      constructor
      · rintro ⟨ds, start, digits, beyond⟩
        obtain rfl | ⟨ds, rfl, rest⟩ := List.prefix_cons_iff.mp start
        · rw [Nat.ofDigitChars_nil] at beyond
          omega
        · rw [List.forall_mem_cons] at digits
          rw [Nat.ofDigitChars_cons] at beyond
          exact ⟨digits.1, ds, rest, digits.2, beyond⟩
      · rintro ⟨digit, ds, start, digits, beyond⟩
        refine ⟨c :: ds, (List.prefix_cons_inj c).mpr start, ?_, ?_⟩
        · exact List.forall_mem_cons.mpr ⟨digit, digits⟩
        · rw [Nat.ofDigitChars_cons]
          exact beyond
    rw [scan, longer]
    by_cases hc : c.isDigit
    · simp only [hc, if_true, true_and]
      by_cases hb : 10 * value + (c.toNat - '0'.toNat) ≤ bound
      · rw [if_pos hb]
        exact ih hb
      · rw [if_neg hb]
        refine iff_of_true rfl ⟨[], List.nil_prefix, by simp, ?_⟩
        rw [Nat.ofDigitChars_nil]
        omega
    · simp [hc]

theorem digits_eq_outOfRange_iff {bound : Nat} {cs : List Char} :
    digits bound cs = .outOfRange ↔ Exceeds bound cs := by
  have some_digit (ds : List Char) (beyond : bound < Nat.ofDigitChars 10 ds 0) : ds ≠ [] := by
    rintro rfl
    exact Nat.not_lt_zero bound beyond
  unfold Exceeds Digits
  cases cs with
  | nil => simp +contextual [digits]
  | cons c cs =>
    rw [digits, scan_eq_outOfRange_iff (Nat.zero_le bound)]
    · refine exists_congr fun ds => and_congr_right fun _ => ?_
      constructor
      · intro h
        exact ⟨⟨some_digit ds h.2, h.1⟩, h.2⟩
      · intro h
        exact ⟨h.1.2, h.2⟩
    · intro h
      cases h

/-- Digits that stand for no number within the bound exceed it. -/
theorem exceeds_of_digits {bound : Nat} {cs : List Char} (h : Digits cs)
    (refused : ∀ n, digits bound cs ≠ .value n) : Exceeds bound cs := by
  refine ⟨cs, List.prefix_rfl, h, ?_⟩
  apply Nat.lt_of_not_le
  intro within
  exact refused _ (digits_eq_value_iff.mpr ⟨h, rfl, within⟩)

theorem positive_eq_outOfRange_iff {cs : List Char} :
    read.positive cs = .outOfRange ↔
      Exceeds 0x7FFFFFFFFFFFFFFF cs ∨ Digits cs ∧ ¬InRange (Nat.ofDigitChars 10 cs 0) := by
  have known (m : Nat) : digits 0x7FFFFFFFFFFFFFFF cs = .value m ↔
      Digits cs ∧ Nat.ofDigitChars 10 cs 0 = m ∧ m ≤ 0x7FFFFFFFFFFFFFFF := digits_eq_value_iff
  rw [← digits_eq_outOfRange_iff]
  unfold read.positive
  split
  · next m hm =>
    obtain ⟨hd, hn, _⟩ := (known m).mp hm
    by_cases hr : InRange m
    · simp [hm, hn, hr]
    · simp [hm, hn, hr, hd]
  · next r hr =>
    constructor
    · exact .inl
    · rintro (h | ⟨hd, _⟩)
      · exact h
      · exact digits_eq_outOfRange_iff.mpr (exceeds_of_digits hd hr)

theorem denotes_minus {ds : List Char} {z : Int} :
    Denotes ('-' :: ds) z ↔ Digits ds ∧ -(Nat.ofDigitChars 10 ds 0 : Int) = z := by
  constructor
  · intro h
    cases h with
    | bare hd => exact absurd (hd.2 '-' (by simp)) (by decide)
    | minus hd => exact ⟨hd, rfl⟩
  · intro h
    rw [← h.2]
    exact .minus h.1

theorem not_denotes_nil (z : Int) : ¬Denotes [] z := by
  intro h
  cases h with
  | bare hd => exact hd.1 rfl

section Overflows

variable {cs : List Char}

/-- Behind a sign, what the digits may stand for is up to the sign. -/
theorem overflows_sign {sign : Char} {value : Nat → Int} {bound : Nat}
    (signed : ∀ {ds z}, Denotes (sign :: ds) z ↔ Digits ds ∧ value (Nat.ofDigitChars 10 ds 0) = z)
    (beyond : ∀ n, bound < n ↔ ¬(-0x8000000000000000 ≤ value n ∧ value n ≤ 0x7FFFFFFFFFFFFFFF)) :
    Overflows (sign :: cs) ↔ Exceeds bound cs := by
  constructor
  · rintro ⟨start, z, pre, denotes, outside⟩
    obtain rfl | ⟨ds, rfl, rest⟩ := List.prefix_cons_iff.mp pre
    · exact absurd denotes (not_denotes_nil z)
    · obtain ⟨hd, rfl⟩ := signed.mp denotes
      exact ⟨ds, rest, hd, (beyond _).mpr outside⟩
  · rintro ⟨ds, rest, hd, large⟩
    exact ⟨sign :: ds, _, (List.prefix_cons_inj sign).mpr rest, signed.mpr ⟨hd, rfl⟩,
      (beyond _).mp large⟩

theorem overflows_minus : Overflows ('-' :: cs) ↔ Exceeds 0x8000000000000000 cs :=
  @overflows_sign cs '-' (fun n => -(n : Int)) _ denotes_minus (by omega)

theorem overflows_plus : Overflows ('+' :: cs) ↔ Exceeds 0x7FFFFFFFFFFFFFFF cs :=
  @overflows_sign cs '+' (fun n => (n : Int)) _ denotes_plus (by omega)

theorem overflows_bare (hp : ∀ ds, cs ≠ '+' :: ds) (hm : ∀ ds, cs ≠ '-' :: ds) :
    Overflows cs ↔ Exceeds 0x7FFFFFFFFFFFFFFF cs := by
  constructor
  · rintro ⟨start, z, ⟨rest, rfl⟩, denotes, beyond⟩
    have plain : ∀ sign ds, (∀ es, start ++ rest ≠ sign :: es) → start ≠ sign :: ds := by
      rintro sign ds unsigned rfl
      exact unsigned _ rfl
    obtain ⟨hd, rfl⟩ :=
      (denotes_bare (fun ds => plain '+' ds hp) (fun ds => plain '-' ds hm)).mp denotes
    exact ⟨start, List.prefix_append start rest, hd, by omega⟩
  · rintro ⟨ds, rest, hd, beyond⟩
    exact ⟨ds, _, rest, .bare hd, by omega⟩

end Overflows

/-- Behind a minus sign all integers are out of range. -/
theorem exists_denotes_minus {cs : List Char} :
    (∃ z, Denotes ('-' :: cs) z ∧ ¬(1 ≤ z ∧ z ≤ 250)) ↔ Digits cs := by
  constructor
  · rintro ⟨_, denotes, _⟩
    exact (denotes_minus.mp denotes).1
  · intro hd
    exact ⟨_, .minus hd, by omega⟩

theorem exists_outside_iff {p : Prop} {n : Nat} :
    (∃ z : Int, (p ∧ (n : Int) = z) ∧ ¬(1 ≤ z ∧ z ≤ 250)) ↔ p ∧ ¬InRange n := by
  unfold InRange
  constructor
  · rintro ⟨_, ⟨hp, rfl⟩, outside⟩
    exact ⟨hp, by omega⟩
  · rintro ⟨hp, outside⟩
    exact ⟨n, ⟨hp, rfl⟩, by omega⟩

/-- A token is out of range if it is an integer out of range, or begins with one beyond 64 bits. -/
theorem read_eq_outOfRange_iff {token : String} :
    read token = .outOfRange ↔
      Overflows token.toList ∨ ∃ z, Denotes token.toList z ∧ ¬(1 ≤ z ∧ z ≤ 250) := by
  unfold read
  generalize token.toList = cs
  split
  · next cs =>
    rw [overflows_minus, exists_denotes_minus, ← digits_eq_outOfRange_iff]
    split
    · next m hm => exact iff_of_true rfl (.inr (digits_eq_value_iff.mp hm).1)
    · next r hr =>
      constructor
      · exact .inl
      · rintro (h | hd)
        · exact h
        · exact digits_eq_outOfRange_iff.mpr (exceeds_of_digits hd hr)
  · next cs =>
    rw [positive_eq_outOfRange_iff, overflows_plus]
    simp only [denotes_plus, exists_outside_iff]
  · next hm hp =>
    rw [positive_eq_outOfRange_iff, overflows_bare hp hm]
    simp only [denotes_bare hp hm, exists_outside_iff]

/-- An integer that begins with one beyond 64 bits is out of range itself. -/
theorem Overflows.outside {token : String} (h : Overflows token.toList)
    (whole : Whole token.toList) : ∃ z, Denotes token.toList z ∧ ¬(1 ≤ z ∧ z ≤ 250) := by
  obtain ⟨z, denotes⟩ := whole
  refine ⟨z, denotes, fun inside => ?_⟩
  obtain ⟨n, rfl⟩ := Int.eq_ofNat_of_zero_le (show 0 ≤ z by omega)
  have given : read token = .value n := read_eq_value_iff.mpr ⟨denotes, by omega, by omega⟩
  rw [read_eq_outOfRange_iff.mpr (.inl h)] at given
  cases given

/-- In an integer there are digits and signs only. -/
theorem Whole.isDigit_or_sign {cs : List Char} (h : Whole cs) :
    ∀ c ∈ cs, c.isDigit ∨ c = '+' ∨ c = '-' := by
  obtain ⟨z, denotes⟩ := h
  cases denotes with
  | bare hd => exact fun c hc => .inl (hd.2 c hc)
  | plus hd => exact List.forall_mem_cons.mpr ⟨.inr (.inl rfl), fun c hc => .inl (hd.2 c hc)⟩
  | minus hd => exact List.forall_mem_cons.mpr ⟨.inr (.inr rfl), fun c hc => .inl (hd.2 c hc)⟩

/-- What is not numeric is no integer, and does not begin with one beyond 64 bits. -/
theorem read_eq_notNumeric_iff {token : String} :
    read token = .notNumeric ↔ ¬Whole token.toList ∧ ¬Overflows token.toList := by
  have values (n : Nat) : read token = .value n ↔ Gives token n := read_eq_value_iff
  have outside := @read_eq_outOfRange_iff token
  unfold Whole
  cases h : read token with
  | value n =>
    rw [h] at values
    have given := (values n).mp rfl
    exact iff_of_false nofun fun refused => refused.1 ⟨_, given.1⟩
  | outOfRange =>
    rw [h] at outside
    refine iff_of_false nofun fun refused => ?_
    obtain overflows | ⟨z, denotes, _⟩ := outside.mp rfl
    · exact refused.2 overflows
    · exact refused.1 ⟨z, denotes⟩
  | notNumeric =>
    rw [h] at outside values
    refine iff_of_true rfl ⟨?_, fun overflows => ?_⟩
    · rintro ⟨z, denotes⟩
      by_cases inside : 1 ≤ z ∧ z ≤ 250
      · obtain ⟨n, rfl⟩ := Int.eq_ofNat_of_zero_le (show 0 ≤ z by omega)
        cases (values n).mpr ⟨denotes, by omega, by omega⟩
      · cases outside.mpr (.inr ⟨z, denotes, inside⟩)
    · cases outside.mpr (.inl overflows)

end PixelScript.Coordinate
