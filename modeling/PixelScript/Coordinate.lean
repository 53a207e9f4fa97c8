import PixelScript.Canvas

namespace PixelScript.Coordinate

/-- What a token is as a coordinate. -/
inductive Reading where
  | value (n : Nat)
  | notNumeric
  | outOfRange
  deriving DecidableEq

/-- Appends digits to `value` up to the end of the token. Nothing after the digit that takes the
number beyond `bound` is looked at. -/
def scan (bound value : Nat) : List Char → Reading
  | [] => .value value
  | c :: cs =>
    if c.isDigit then
      let next := 10 * value + (c.toNat - '0'.toNat)
      if next ≤ bound then scan bound next cs else .outOfRange
    else .notNumeric

/-- One digit at least. -/
def digits (bound : Nat) : List Char → Reading
  | [] => .notNumeric
  | cs => scan bound 0 cs

/-- Integers have 64 bits, so the bound is one higher below zero. -/
def read (token : String) : Reading :=
  match token.toList with
  | '-' :: cs =>
    match digits 0x8000000000000000 cs with
    | .value _ => .outOfRange
    | r => r
  | '+' :: cs => positive cs
  | cs => positive cs
where
  positive (cs : List Char) : Reading :=
    match digits 0x7FFFFFFFFFFFFFFF cs with
    | .value n => if InRange n then .value n else .outOfRange
    | r => r

/-- One decimal digit or more. -/
def Digits (cs : List Char) : Prop := cs ≠ [] ∧ ∀ c ∈ cs, c.isDigit

/-- The integer that digits stand for, with or without a sign. Zeros in front change nothing, and
there may be any number of digits. -/
inductive Denotes : List Char → Int → Prop
  | bare {ds : List Char} : Digits ds → Denotes ds (Nat.ofDigitChars 10 ds 0)
  | plus {ds : List Char} : Digits ds → Denotes ('+' :: ds) (Nat.ofDigitChars 10 ds 0)
  | minus {ds : List Char} : Digits ds → Denotes ('-' :: ds) (-(Nat.ofDigitChars 10 ds 0))

/-- A token for a number from 1 to 250. -/
def Gives (token : String) (n : Nat) : Prop := Denotes token.toList n ∧ InRange n

/-- More digits make no number smaller. -/
theorem le_ofDigitChars (cs : List Char) (value : Nat) : value ≤ Nat.ofDigitChars 10 cs value := by
  induction cs generalizing value with
  | nil => simp
  | cons c cs ih =>
    rw [Nat.ofDigitChars_cons]
    have h := ih (10 * value + (c.toNat - '0'.toNat))
    omega

/-- The scan gets to the end exactly if it meets digits only and their number is within bounds: if
it is, then so is the number after each digit. -/
theorem scan_eq_value_iff {bound value n : Nat} {cs : List Char} (hv : value ≤ bound) :
    scan bound value cs = .value n ↔
      (∀ c ∈ cs, c.isDigit) ∧ Nat.ofDigitChars 10 cs value = n ∧ n ≤ bound := by
  induction cs generalizing value with
  | nil =>
    simp only [scan, Reading.value.injEq, Nat.ofDigitChars_nil]
    constructor
    · intro h
      exact ⟨by simp, h, by omega⟩
    · intro h
      exact h.2.1
  | cons c cs ih =>
    rw [scan, Nat.ofDigitChars_cons, List.forall_mem_cons]
    by_cases hc : c.isDigit
    · simp only [hc, if_true, true_and]
      by_cases hb : 10 * value + (c.toNat - '0'.toNat) ≤ bound
      · rw [if_pos hb]
        exact ih hb
      · have far := le_ofDigitChars cs (10 * value + (c.toNat - '0'.toNat))
        rw [if_neg hb]
        constructor
        · intro h
          cases h
        · intro h
          omega
    · simp [hc]

theorem digits_eq_value_iff {bound n : Nat} {cs : List Char} :
    digits bound cs = .value n ↔ Digits cs ∧ Nat.ofDigitChars 10 cs 0 = n ∧ n ≤ bound := by
  cases cs with
  | nil => simp [digits, Digits]
  | cons c cs =>
    rw [digits, scan_eq_value_iff (Nat.zero_le bound)]
    · simp [Digits]
    · intro h
      cases h

theorem positive_eq_value_iff {n : Nat} {cs : List Char} :
    read.positive cs = .value n ↔ Digits cs ∧ Nat.ofDigitChars 10 cs 0 = n ∧ InRange n := by
  have small : InRange n → n ≤ 0x7FFFFFFFFFFFFFFF := by
    intro h
    have := h.2
    omega
  have known (m : Nat) : digits 0x7FFFFFFFFFFFFFFF cs = .value m ↔
      Digits cs ∧ Nat.ofDigitChars 10 cs 0 = m ∧ m ≤ 0x7FFFFFFFFFFFFFFF := digits_eq_value_iff
  unfold read.positive
  split
  · next m hm =>
    obtain ⟨hd, hn, _⟩ := (known m).mp hm
    rw [hn]
    by_cases hr : InRange m
    · rw [if_pos hr, Reading.value.injEq]
      constructor
      · intro h
        subst h
        exact ⟨hd, rfl, hr⟩
      · intro h
        exact h.2.1
    · rw [if_neg hr]
      constructor
      · intro h
        cases h
      · intro h
        exact absurd (h.2.1 ▸ h.2.2) hr
  · next r hr =>
    constructor
    · intro h
      exact absurd h (hr n)
    · intro h
      exact (known n).mpr ⟨h.1, h.2.1, small h.2.2⟩

theorem denotes_plus {ds : List Char} {z : Int} :
    Denotes ('+' :: ds) z ↔ Digits ds ∧ (Nat.ofDigitChars 10 ds 0 : Int) = z := by
  constructor
  · intro h
    cases h with
    | bare hd => exact absurd (hd.2 '+' (by simp)) (by decide)
    | plus hd => exact ⟨hd, rfl⟩
  · intro h
    rw [← h.2]
    exact .plus h.1

theorem denotes_bare {cs : List Char} {z : Int} (hp : ∀ ds, cs ≠ '+' :: ds)
    (hm : ∀ ds, cs ≠ '-' :: ds) :
    Denotes cs z ↔ Digits cs ∧ (Nat.ofDigitChars 10 cs 0 : Int) = z := by
  constructor
  · intro h
    cases h with
    | bare hd => exact ⟨hd, rfl⟩
    | plus hd => exact absurd rfl (hp _)
    | minus hd => exact absurd rfl (hm _)
  · intro h
    rw [← h.2]
    exact .bare h.1

/-- Behind a minus sign nothing is in range. -/
theorem not_denotes_minus {ds : List Char} {n : Nat} (hn : InRange n) :
    ¬Denotes ('-' :: ds) n := by
  generalize hz : (n : Int) = z
  intro h
  have pos := hn.1
  cases h with
  | bare hd => exact absurd (hd.2 '-' (by simp)) (by decide)
  | minus hd => omega

theorem read_eq_value_iff {token : String} {n : Nat} : read token = .value n ↔ Gives token n := by
  unfold read Gives
  generalize token.toList = cs
  split
  · next cs =>
    have outside : ¬(Denotes ('-' :: cs) n ∧ InRange n) := fun h => not_denotes_minus h.2 h.1
    split
    · simp [outside]
    · next r hr =>
      constructor
      · intro h
        exact absurd h (hr n)
      · intro h
        exact absurd h outside
  · next cs =>
    rw [positive_eq_value_iff, denotes_plus, and_assoc, Int.natCast_inj]
  · next hm hp =>
    rw [positive_eq_value_iff, denotes_bare hp hm, and_assoc, Int.natCast_inj]

end PixelScript.Coordinate
