namespace PixelScript.Text

/-- The Unicode property White_Space. -/
def isBlank (c : Char) : Bool :=
  let n := c.toNat
  9 ≤ n && n ≤ 13 || n = 0x20 || n = 0x85 || n = 0xA0 || n = 0x1680 ||
    0x2000 ≤ n && n ≤ 0x200A || n = 0x2028 || n = 0x2029 || n = 0x202F || n = 0x205F || n = 0x3000

theorem isBlank_of_isDigit {c : Char} (h : c.isDigit) : isBlank c = false := by
  have range : 48 ≤ c.toNat ∧ c.toNat ≤ 57 := Char.isDigit_iff_toNat.mp h
  simp only [isBlank, Bool.or_eq_false_iff, Bool.and_eq_false_iff, decide_eq_false_iff_not]
  omega

/-- The maximal runs without blanks, in order. -/
def words (cs : List Char) : List (List Char) :=
  (cs.splitOnP isBlank).filter (!·.isEmpty)

theorem words_ne_nil {cs w : List Char} (h : w ∈ words cs) : w ≠ [] := by
  rintro rfl
  simp [words] at h

/-- No piece of a list cut at some of its elements holds one of them. -/
theorem not_of_mem_splitOnP {α : Type _} {p : α → Bool} {as w : List α} (h : w ∈ as.splitOnP p) :
    ∀ a ∈ w, p a = false := by
  induction as generalizing w with
  | nil =>
    rw [List.splitOnP_nil, List.mem_singleton] at h
    simp [h]
  | cons a as ih =>
    rw [List.splitOnP_cons_eq_if_modifyHead] at h
    split at h
    · cases h with
      | head => simp
      | tail _ h => exact ih h
    · next ha =>
      cases hs : as.splitOnP p with
      | nil => exact absurd hs (List.splitOnP_ne_nil p as)
      | cons v vs =>
        rw [hs] at h ih
        cases h with
        | head =>
          intro b hb
          cases hb with
          | head => exact Bool.eq_false_iff.mpr ha
          | tail _ hb => exact ih List.mem_cons_self b hb
        | tail _ h => exact ih (List.mem_cons_of_mem v h)

theorem words_unbroken {cs w : List Char} (h : w ∈ words cs) : ∀ c ∈ w, isBlank c = false :=
  not_of_mem_splitOnP (List.mem_filter.mp h).1

theorem words_cons_blank {c : Char} {cs : List Char} (h : isBlank c) :
    words (c :: cs) = words cs := by
  simp [words, List.splitOnP_cons_eq_if_modifyHead, h]

theorem words_append_blank (cs ds : List Char) {c : Char} (h : isBlank c) :
    words (cs ++ c :: ds) = words cs ++ words ds := by
  simp [words, List.splitOnP_append_cons, h]

theorem words_of_no_blank {cs : List Char} (h : ∀ c ∈ cs, isBlank c = false) (hn : cs ≠ []) :
    words cs = [cs] := by
  simp [words, List.splitOnP_eq_singleton h, hn]

def Blanks (cs : List Char) : Prop := ∀ c ∈ cs, isBlank c

def Word (cs : List Char) : Prop := cs ≠ [] ∧ ∀ c ∈ cs, isBlank c = false

instance (cs : List Char) : Decidable (Blanks cs) :=
  decidable_of_iff (cs.all isBlank = true) List.all_eq_true

instance (cs : List Char) : Decidable (Word cs) :=
  decidable_of_iff (cs ≠ [] ∧ cs.all (!isBlank ·) = true) (by simp [Word])

/-- The texts of words that follow another: each has blanks before it, and blanks may end it all. -/
inductive Trailing : List (List Char) → List Char → Prop
  | nil {gap : List Char} : Blanks gap → Trailing [] gap
  | cons {gap w cs : List Char} {ws : List (List Char)} :
      Blanks gap → gap ≠ [] → Trailing ws cs → Trailing (w :: ws) (gap ++ w ++ cs)

/-- The texts of some words in order, with blanks between them and any around them. -/
inductive Spread : List (List Char) → List Char → Prop
  | nil {gap : List Char} : Blanks gap → Spread [] gap
  | cons {gap w cs : List Char} {ws : List (List Char)} :
      Blanks gap → Trailing ws cs → Spread (w :: ws) (gap ++ w ++ cs)

@[simp] theorem words_nil : words [] = [] := by simp [words]

theorem words_blanks_append {gap : List Char} (h : Blanks gap) (cs : List Char) :
    words (gap ++ cs) = words cs := by
  induction gap with
  | nil => rfl
  | cons c gap ih =>
    rw [List.cons_append, words_cons_blank (h c (by simp))]
    exact ih fun d hd => h d (by simp [hd])

theorem words_of_blanks {gap : List Char} (h : Blanks gap) : words gap = [] := by
  simpa using words_blanks_append h []

/-- A word ends where the first blank after it stands. -/
theorem words_word_append {w gap cs : List Char} (hw : Word w) (hg : Blanks gap) (hn : gap ≠ []) :
    words (w ++ (gap ++ cs)) = w :: words cs := by
  cases gap with
  | nil => exact absurd rfl hn
  | cons c gap =>
    have hc : isBlank c := hg c (by simp)
    have hgap : Blanks gap := fun d hd => hg d (by simp [hd])
    rw [List.cons_append, words_append_blank _ _ hc, words_of_no_blank hw.2 hw.1,
      words_blanks_append hgap]
    rfl

/-- A word in front of words that follow it is read first. -/
theorem words_append_trailing {ws : List (List Char)} {cs : List Char} (h : Trailing ws cs)
    (hws : ∀ w ∈ ws, Word w) {w : List Char} (hw : Word w) : words (w ++ cs) = w :: ws := by
  induction h generalizing w with
  | nil hg =>
    next gap =>
    by_cases hn : gap = []
    · rw [hn, List.append_nil, words_of_no_blank hw.2 hw.1]
    · have h : words (w ++ (gap ++ [])) = w :: words [] := words_word_append hw hg hn
      simpa using h
  | cons hg hn _ ih =>
    rw [List.append_assoc, words_word_append hw hg hn]
    rw [ih (fun v hv => hws v (by simp [hv])) (hws _ (by simp))]

/-- However words are spread, they are read back. -/
theorem words_of_spread {ws : List (List Char)} {cs : List Char} (h : Spread ws cs)
    (hws : ∀ w ∈ ws, Word w) : words cs = ws := by
  cases h with
  | nil hg => exact words_of_blanks hg
  | cons hg ht =>
    rw [List.append_assoc, words_blanks_append hg]
    exact words_append_trailing ht (fun w hw => hws w (by simp [hw])) (hws _ (by simp))

end PixelScript.Text
