import PixelScript.Text.Blank

namespace PixelScript.Text

variable {cs w : List Char} {ws : List (List Char)}

/-- A maximal run without blanks: a word with a blank, or the end of the text, on either side. -/
def Run (cs w : List Char) : Prop :=
  Word w ∧ ∃ before after, cs = before ++ w ++ after ∧
    (∀ c ∈ before.getLast?, isBlank c) ∧ ∀ c ∈ after.head?, isBlank c

theorem word_of_mem_words (h : w ∈ words cs) : Word w := ⟨words_ne_nil h, words_unbroken h⟩

/-- A blank in front separates words from what stands before them. -/
theorem Spread.trailing {c : Char} (hc : isBlank c) (h : Spread ws cs) : Trailing ws (c :: cs) := by
  cases h with
  | nil hg => exact .nil (List.forall_mem_cons.mpr ⟨hc, hg⟩)
  | @cons gap w cs ws hg ht =>
    have blanks : Blanks (c :: gap) := List.forall_mem_cons.mpr ⟨hc, hg⟩
    exact .cons blanks (List.cons_ne_nil c gap) ht

theorem Trailing.spread (h : Trailing ws cs) : Spread ws cs := by
  cases h with
  | nil hg => exact .nil hg
  | cons hg _ ht => exact .cons hg ht

theorem Spread.cons_blank {c : Char} (hc : isBlank c) (h : Spread ws cs) : Spread ws (c :: cs) :=
  (h.trailing hc).spread

/-- The words of a text are spread over it. `w` is what has been read of the word that goes on. -/
theorem spread_words_append (cs : List Char) {w : List Char} (h : ∀ c ∈ w, isBlank c = false) :
    Spread (words (w ++ cs)) (w ++ cs) := by
  induction cs generalizing w with
  | nil =>
    by_cases hn : w = []
    · rw [hn]
      exact .nil (by simp [Blanks])
    · rw [List.append_nil, words_of_no_blank h hn]
      have alone : Spread [w] ([] ++ w ++ []) := .cons (by simp [Blanks]) (.nil (by simp [Blanks]))
      simpa using alone
  | cons c cs ih =>
    by_cases hc : isBlank c
    · have rest : Spread (words cs) cs := ih (w := []) (by simp)
      rw [words_append_blank w cs hc]
      by_cases hn : w = []
      · rw [hn, words_nil]
        exact rest.cons_blank hc
      · rw [words_of_no_blank h hn]
        have first : Spread (w :: words cs) ([] ++ w ++ c :: cs) :=
          .cons (by simp [Blanks]) (rest.trailing hc)
        exact first
    · have further : ∀ d ∈ w ++ [c], isBlank d = false := by
        intro d hd
        rw [List.mem_append, List.mem_singleton] at hd
        obtain hd | rfl := hd
        · exact h d hd
        · exact Bool.eq_false_iff.mpr hc
      simpa using ih further

theorem spread_words (cs : List Char) : Spread (words cs) cs :=
  spread_words_append cs (w := []) (by simp)

/-- There is one way only to read a text as words with blanks between them. -/
theorem spread_iff (hws : ∀ w ∈ ws, Word w) : Spread ws cs ↔ words cs = ws := by
  constructor
  · intro h
    exact words_of_spread h hws
  · rintro rfl
    exact spread_words cs

theorem Trailing.blank_head (h : Trailing ws cs) : ∀ c ∈ cs.head?, isBlank c := by
  intro c hc
  cases h with
  | nil hg => exact hg c (List.mem_of_mem_head? hc)
  | @cons gap w cs ws hg hn _ =>
    cases gap with
    | nil => exact absurd rfl hn
    | cons d gap =>
      have first : d = c := by simpa using hc
      exact hg c (by simp [first])

theorem Trailing.exists_run (h : Trailing ws cs) (hw : w ∈ ws) :
    ∃ before blank after, cs = before ++ blank :: (w ++ after) ∧ isBlank blank ∧
      ∀ c ∈ after.head?, isBlank c := by
  induction h with
  | nil _ => cases hw
  | @cons gap v cs ws hg hn ht ih =>
    cases hw with
    | head =>
      obtain ⟨before, blank, rfl⟩ : ∃ before blank, gap = before ++ [blank] :=
        ⟨_, _, (List.dropLast_concat_getLast hn).symm⟩
      exact ⟨before, blank, cs, by simp, hg blank (by simp), ht.blank_head⟩
    | tail _ hw =>
      obtain ⟨before, blank, after, rfl, hb, ha⟩ := ih hw
      exact ⟨gap ++ v ++ before, blank, after, by simp, hb, ha⟩

theorem Spread.run (h : Spread ws cs) (hws : ∀ w ∈ ws, Word w) (hw : w ∈ ws) : Run cs w := by
  refine ⟨hws w hw, ?_⟩
  cases h with
  | nil _ => cases hw
  | @cons gap v cs ws hg ht =>
    cases hw with
    | head =>
      exact ⟨gap, cs, rfl, fun c hc => hg c (List.mem_of_getLast? hc), ht.blank_head⟩
    | tail _ hw =>
      obtain ⟨before, blank, after, rfl, hb, ha⟩ := ht.exists_run hw
      refine ⟨gap ++ v ++ before ++ [blank], after, by simp, ?_, ha⟩
      simpa using hb

theorem words_append_of_head {after : List Char} (hw : Word w) (h : ∀ c ∈ after.head?, isBlank c) :
    words (w ++ after) = w :: words after := by
  cases after with
  | nil => rw [List.append_nil, words_of_no_blank hw.2 hw.1, words_nil]
  | cons c after =>
    have hc : isBlank c := h c rfl
    rw [words_append_blank w after hc, words_of_no_blank hw.2 hw.1, words_cons_blank hc]
    rfl

/-- The words of a text are its maximal runs without blanks. -/
theorem mem_words_iff : w ∈ words cs ↔ Run cs w := by
  constructor
  · intro h
    exact (spread_words cs).run (fun _ => word_of_mem_words) h
  · rintro ⟨hw, before, after, rfl, left, right⟩
    have last : w ∈ words (w ++ after) := by
      rw [words_append_of_head hw right]
      exact List.mem_cons_self
    obtain rfl | ⟨start, blank, rfl⟩ := List.eq_nil_or_concat before
    · exact last
    · have hb : isBlank blank := left blank (by simp)
      rw [List.concat_eq_append, List.append_assoc, List.append_assoc, List.singleton_append,
        words_append_blank start _ hb]
      exact List.mem_append_right _ last

theorem filter_blanks {gap : List Char} (h : Blanks gap) : gap.filter (!isBlank ·) = [] := by
  rw [List.filter_eq_nil_iff]
  intro c hc
  simp [h c hc]

theorem filter_word (hw : Word w) : w.filter (!isBlank ·) = w := by
  rw [List.filter_eq_self]
  intro c hc
  simp [hw.2 c hc]

theorem Trailing.flatten (h : Trailing ws cs) (hws : ∀ w ∈ ws, Word w) :
    ws.flatten = cs.filter (!isBlank ·) := by
  induction h with
  | nil hg => exact (filter_blanks hg).symm
  | cons hg _ _ ih =>
    obtain ⟨hw, hws⟩ := List.forall_mem_cons.mp hws
    rw [List.filter_append, List.filter_append, filter_blanks hg, filter_word hw, ← ih hws]
    rfl

/-- A blank put in front changes neither side. -/
theorem Spread.flatten (h : Spread ws cs) (hws : ∀ w ∈ ws, Word w) :
    ws.flatten = cs.filter (!isBlank ·) := by
  have blank : isBlank ' ' := by decide
  rw [(h.trailing blank).flatten hws, List.filter_cons_of_neg (by simp [blank])]

/-- Words are all that is left of a text without its blanks. -/
theorem flatten_words (cs : List Char) : (words cs).flatten = cs.filter (!isBlank ·) :=
  (spread_words cs).flatten fun _ => word_of_mem_words

end PixelScript.Text
