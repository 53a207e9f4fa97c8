import PixelScript.Text.Casing

namespace PixelScript.Text.Casing

/-- The capital form of the character is not its small form. -/
def TwoForms (c : Char) : Prop := upper c.toNat ≠ lower c.toNat

instance (c : Char) : Decidable (TwoForms c) := inferInstanceAs (Decidable (_ ≠ _))

/-- Lists that differ in their first elements. -/
def Parted : List Nat → List Nat → Prop
  | a :: _, b :: _ => a ≠ b
  | _, _ => False

instance : (as bs : List Nat) → Decidable (Parted as bs)
  | _ :: _, _ :: _ => inferInstanceAs (Decidable (_ ≠ _))
  | [], _ => inferInstanceAs (Decidable False)
  | _ :: _, [] => inferInstanceAs (Decidable False)

theorem Parted.append_ne {as bs : List Nat} (h : Parted as bs) (cs ds : List Nat) :
    as ++ cs ≠ bs ++ ds := by
  cases as with
  | nil => cases h
  | cons a as =>
    cases bs with
    | nil => cases h
    | cons b bs =>
      intro same
      exact h (List.cons.inj same).1

section Tables

/-- One of the two forms of a code point: `upper` and `lower` read the tables alike, each from its
own side. -/
def form (odd : List (Nat × List Nat)) (own other : Block → Nat) (n : Nat) : List Nat :=
  match odd.lookup n, blocks.find? (fun b => upper.within (own b) b n) with
  | some ms, _ => ms
  | none, some b => [other b + (n - own b)]
  | none, none => [n]

theorem upper_eq_form (n : Nat) : upper n = form raised Block.small Block.capital n := rfl

theorem lower_eq_form (n : Nat) : lower n = form lowered Block.capital Block.small n := rfl

/-- A form stands in the table of odd forms, or comes from a block that the code point is in, or is
the code point itself. -/
theorem form_cases (odd : List (Nat × List Nat)) (own other : Block → Nat) (n : Nat) :
    (n, form odd own other n) ∈ odd ∨
    (∃ b ∈ blocks, own b ≤ n ∧ n < own b + b.count * b.step ∧
      form odd own other n = [other b + (n - own b)]) ∨
    form odd own other n = [n] := by
  unfold form
  cases listed : odd.lookup n with
  | some ms =>
    obtain ⟨before, after, parts, _⟩ := List.lookup_eq_some_iff.mp listed
    left
    rw [parts]
    exact List.mem_append_right before List.mem_cons_self
  | none =>
    right
    cases found : blocks.find? (fun b => upper.within (own b) b n) with
    | some b =>
      have within := List.find?_some found
      simp only [upper.within, Bool.and_eq_true, decide_eq_true_eq] at within
      exact .inl ⟨b, List.mem_of_find?_eq_some found, within.1.1, within.1.2, rfl⟩
    | none => exact .inr rfl

theorem raised_parted : ∀ e ∈ raised, Parted e.2 (lower e.1) := by decide +kernel

theorem lowered_parted : ∀ e ∈ lowered, Parted (upper e.1) e.2 := by decide +kernel

theorem capital_ne_small : ∀ b ∈ blocks, b.capital ≠ b.small := by decide +kernel

/-- Two blocks that shift code points by the same distance in opposite directions do not overlap.
One of the two, `b`, has its capitals above its small letters. -/
theorem blocks_apart : ∀ b ∈ blocks, b.small < b.capital → ∀ d ∈ blocks,
    b.capital + d.capital = b.small + d.small →
      (b.small + b.count * b.step ≤ d.capital ∨ d.capital + d.count * d.step ≤ b.small) ∧
      (d.small + d.count * d.step ≤ b.capital ∨ b.capital + b.count * b.step ≤ d.small) := by
  decide +kernel

/-- A code point among the small letters of one block and the capitals of another has two forms. -/
theorem shifts_ne {b d : Block} (hb : b ∈ blocks) (hd : d ∈ blocks) {n : Nat}
    (small : b.small ≤ n ∧ n < b.small + b.count * b.step)
    (capital : d.capital ≤ n ∧ n < d.capital + d.count * d.step) :
    b.capital + (n - b.small) ≠ d.small + (n - d.capital) := by
  intro same
  have opposite : b.capital + d.capital = b.small + d.small := by omega
  by_cases above : b.small < b.capital
  · have apart := (blocks_apart b hb above d hd opposite).1
    omega
  · have distinct := capital_ne_small b hb
    have above : d.small < d.capital := by omega
    have apart := (blocks_apart d hd above b hb (by omega)).2
    omega

/-- If the forms of a code point differ at all, they differ in their first code points. -/
theorem parted_forms {n : Nat} (h : upper n ≠ lower n) : Parted (upper n) (lower n) := by
  have uppers := form_cases raised Block.small Block.capital n
  have lowers := form_cases lowered Block.capital Block.small n
  rw [← upper_eq_form] at uppers
  rw [← lower_eq_form] at lowers
  obtain listed | uppers := uppers
  · exact raised_parted _ listed
  obtain listed | lowers := lowers
  · exact lowered_parted _ listed
  obtain ⟨b, hb, least, most, up⟩ | up := uppers <;>
    obtain ⟨d, hd, first, last, low⟩ | low := lowers
  · rw [up, low]
    exact shifts_ne hb hd ⟨least, most⟩ ⟨first, last⟩
  · have distinct := capital_ne_small b hb
    rw [up, low, Parted]
    omega
  · have distinct := capital_ne_small d hd
    rw [up, low, Parted]
    omega
  · rw [up, low] at h
    exact absurd rfl h

theorem form_of_lt {odd : List (Nat × List Nat)} {own other : Block → Nat} {first n : Nat}
    (listed : ∀ e ∈ odd, first ≤ e.1) (shifted : ∀ b ∈ blocks, first ≤ own b) (h : n < first) :
    form odd own other n = [n] := by
  obtain entry | ⟨b, hb, least, _⟩ | itself := form_cases odd own other n
  · have bound := listed _ entry
    omega
  · have bound := shifted b hb
    omega
  · exact itself

/-- The tables begin at the letter A. What comes before it, digits and signs too, has one form. -/
theorem upper_eq_lower_of_lt {n : Nat} (h : n < 65) : upper n = lower n := by
  have up : upper n = [n] := form_of_lt (by decide +kernel) (by decide +kernel) h
  have low : lower n = [n] := form_of_lt (by decide +kernel) (by decide +kernel) h
  rw [up, low]

end Tables

/-- The small form of a character where it stands: a sigma may end a word. -/
theorem lowerText_cons (before : List Char) (c : Char) (after : List Char) :
    ∃ small, lowerText before (c :: after) = small ++ lowerText (c :: before) after ∧
      (small = lower c.toNat ∨ c = 'Σ' ∧ small = ['ς'.toNat]) := by
  rw [lowerText]
  split
  · next ends =>
    have sigma : c = 'Σ' := by
      simp only [Bool.and_eq_true, decide_eq_true_eq] at ends
      exact ends.1
    exact ⟨_, rfl, .inr ⟨sigma, rfl⟩⟩
  · exact ⟨_, rfl, .inl rfl⟩

/-- A sigma has two forms wherever it stands, and they differ in their first code points. -/
theorem upperText_cons_ne {c : Char} (h : TwoForms c) (before after : List Char) :
    upperText (c :: after) ≠ lowerText before (c :: after) := by
  obtain ⟨small, parts, plain | ⟨rfl, rfl⟩⟩ := lowerText_cons before c after
  · rw [parts, plain]
    exact (parted_forms h).append_ne _ _
  · rw [parts]
    have capital : upper 'Σ'.toNat = ['Σ'.toNat] := by decide +kernel
    have parted : Parted (upper 'Σ'.toNat) ['ς'.toNat] := by
      rw [capital]
      decide
    exact parted.append_ne _ _

/-- Capitals and small letters of a text are the same exactly if they are for each character: up to
the first character with two forms the texts agree, and there they part. -/
theorem upperText_eq_lowerText_iff (before cs : List Char) :
    upperText cs = lowerText before cs ↔ ∀ c ∈ cs, ¬TwoForms c := by
  induction cs generalizing before with
  | nil => exact iff_of_true rfl (by simp)
  | cons c cs ih =>
    rw [List.forall_mem_cons]
    by_cases two : TwoForms c
    · exact iff_of_false (upperText_cons_ne two before cs) fun h => h.1 two
    · have one : upper c.toNat = lower c.toNat := Decidable.not_not.mp two
      obtain ⟨small, parts, plain | ⟨rfl, _⟩⟩ := lowerText_cons before c cs
      · have first : upperText (c :: cs) = upper c.toNat ++ upperText cs := List.flatMap_cons
        rw [and_iff_right two, ← ih (c :: before), parts, plain, first, one]
        exact List.append_right_inj _
      · exact absurd (by decide +kernel) two

end PixelScript.Text.Casing
