import PixelScript.Script

namespace PixelScript.Text

/-- Without a blank, as reading leaves every word. -/
def Unbroken (text : String) : Prop := ∀ c ∈ text.toList, isBlank c = false

/-- The only blanks in it are spaces. -/
def Spaced (text : String) : Prop := ∀ c ∈ text.toList, isBlank c → c = ' '

theorem spaced_ofList {cs : List Char} (h : cs.all fun c => isBlank c → c = ' ') :
    Spaced (String.ofList cs) := by
  rw [Spaced, String.toList_ofList]
  intro c hc
  exact of_decide_eq_true (List.all_eq_true.mp h c hc)

theorem Unbroken.spaced {text : String} (h : Unbroken text) : Spaced text := by
  intro c hc blank
  rw [h c hc] at blank
  cases blank

theorem Spaced.append {a b : String} (ha : Spaced a) (hb : Spaced b) : Spaced (a ++ b) := by
  intro c hc
  rw [String.toList_append, List.mem_append] at hc
  exact hc.elim (ha c) (hb c)

theorem Spaced.framed {text : String} (h : Spaced text) : '\n' ∉ text.toList := by
  intro broken
  exact absurd (h '\n' broken (by decide)) (by decide)

theorem unbroken_toString (n : Nat) : Unbroken (toString n) := by
  intro c hc
  rw [Nat.toString_eq_repr, Nat.toList_repr] at hc
  exact isBlank_of_isDigit (Nat.isDigit_of_mem_toDigits (by decide) (by decide) hc)

/-- Lines of text, each with a line break at its end. -/
def ended (lines : List String) : String := String.join (lines.map (· ++ "\n"))

/-- One line with its line break at the very end. -/
def OneLine (text : String) : Prop := ∃ line, '\n' ∉ line.toList ∧ text = line ++ "\n"

theorem oneLine_append_break {line : String} : OneLine (line ++ "\n") ↔ '\n' ∉ line.toList := by
  constructor
  · rintro ⟨other, framed, same⟩
    cases (String.append_left_inj _).mp same
    exact framed
  · intro framed
    exact ⟨line, framed, rfl⟩

/-- The lines of a text without their line breaks. -/
def linesOf (text : String) : List String :=
  (Script.pieces '\n' text.toList).map String.ofList

theorem ended_cons (line : String) (lines : List String) :
    ended (line :: lines) = line ++ "\n" ++ ended lines := by
  simp [ended, String.join_cons]

/-- Lines without line breaks of their own are read back. -/
theorem linesOf_ended {lines : List String} (h : ∀ line ∈ lines, '\n' ∉ line.toList) :
    linesOf (ended lines) = lines := by
  induction lines with
  | nil => rfl
  | cons line lines ih =>
    have within : '\n' ∉ line.toList := h line List.mem_cons_self
    have rest : linesOf (ended lines) = lines := ih fun l hl => h l (List.mem_cons_of_mem line hl)
    have chars : (ended (line :: lines)).toList = line.toList ++ '\n' :: (ended lines).toList := by
      rw [ended_cons, String.toList_append, String.toList_append, List.append_assoc]
      rfl
    rw [linesOf, chars, Script.pieces_append_cons within, List.map_cons, String.ofList_toList]
    exact congrArg (line :: ·) rest

/-- The only blanks in unbroken lines are their line breaks. -/
theorem eq_lineBreak_of_mem_ended {lines : List String} (h : ∀ line ∈ lines, Unbroken line)
    {c : Char} (hc : c ∈ (ended lines).toList) (blank : isBlank c) : c = '\n' := by
  rw [ended, String.toList_join] at hc
  obtain ⟨part, hp, hc⟩ := List.mem_flatMap.mp hc
  obtain ⟨line, hl, rfl⟩ := List.mem_map.mp hp
  rw [String.toList_append, List.mem_append] at hc
  cases hc with
  | inl within =>
    rw [h line hl c within] at blank
    cases blank
  | inr broken => exact List.mem_singleton.mp broken

/-- Line breaks between lines and one at the end are a line break after each. -/
theorem intercalate_append_break {lines : List String} (h : lines ≠ []) :
    "\n".intercalate lines ++ "\n" = ended lines := by
  induction lines with
  | nil => exact absurd rfl h
  | cons line lines ih =>
    cases lines with
    | nil => simp [ended, String.join_cons]
    | cons next lines =>
      rw [ended_cons, ← ih (by simp), String.intercalate_cons_cons]
      simp only [String.append_assoc]

/-- What the lines of a text say, if each of them says something. -/
def readLines? {α : Type} (read : String → Option α) (text : String) : Option (List α) :=
  (linesOf text).mapM read

/-- Lines that are read back one by one are read back from the text they make. -/
theorem readLines?_ended {α β : Type} {write : α → String} {read : String → Option β}
    {view : α → β} {as : List α} (framed : ∀ a ∈ as, '\n' ∉ (write a).toList)
    (h : ∀ a ∈ as, read (write a) = some (view a)) :
    readLines? read (ended (as.map write)) = some (as.map view) := by
  have lines : linesOf (ended (as.map write)) = as.map write :=
    linesOf_ended (List.forall_mem_map.mpr framed)
  rw [readLines?, lines]
  clear framed lines
  induction as with
  | nil => rfl
  | cons a as ih =>
    have first : read (write a) = some (view a) := h a List.mem_cons_self
    have rest := ih fun b hb => h b (List.mem_cons_of_mem a hb)
    rw [List.map_cons, List.mapM_cons, first, rest]
    rfl

end PixelScript.Text
