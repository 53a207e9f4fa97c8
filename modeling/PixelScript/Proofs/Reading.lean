import PixelScript.Script.Returns
import PixelScript.Text.Runs

namespace PixelScript

namespace Script

theorem lines_eq_error_iff {bytes : ByteArray} :
    lines bytes = .error .notUtf8 ↔ ¬bytes.IsValidUTF8 := by
  rw [Text.isValidUTF8_iff]
  constructor
  · intro failed ⟨text, code⟩
    rw [code, lines_toUTF8] at failed
    cases failed
  · intro invalid
    cases h : lines bytes with
    | ok ls => exact absurd (exists_text_of_lines h) invalid
    | error e =>
      have cause : e = .notUtf8 := linesFrom_eq_error h
      rw [cause]

/-- Bytes are read as a script exactly if they are UTF-8, one line after the other, and carriage
returns before line feeds make no difference. -/
theorem lines_of_bytes (bytes : ByteArray) :
    (lines bytes = .error .notUtf8 ↔ ¬bytes.IsValidUTF8) ∧
    (∀ text : String, bytes = text.toUTF8 → ∃ ls, lines bytes = .ok ls ∧
      ls.length = bytes.data.toList.count 10 +
        (if bytes.data.toList = [] ∨ bytes.data.toList.getLast? = some 10 then 0 else 1) ∧
      ∀ i < ls.length, ∃ segment, (text.toList.splitOn '\n')[i]? = some segment ∧
        ls[i]? = some (Line.ofText (i + 1) (String.ofList segment))) ∧
    (∀ after : ByteArray, bytes = .empty ∨ bytes.data.back? = some 10 → ∀ ls,
      lines (bytes ++ after) = .ok ls ↔ ∃ as bs, lines bytes = .ok as ∧ lines after = .ok bs ∧
        ls = as ++ bs.map (Line.down as.length)) ∧
    (∀ other : ByteArray, Returned bytes.data.toList other.data.toList →
      lines other = lines bytes) ∧
    lines bytes = linesFrom 1 (chomped bytes.data.toList) := by
  refine ⟨lines_eq_error_iff, ?_, ?_, ?_, ?_⟩
  · intro text code
    rw [code]
    exact exists_lines_of_text text
  · intro after ended ls
    exact lines_append_eq_ok_iff ended
  · intro other more
    exact lines_returned more
  · exact (linesFrom_chomped 1 bytes.data.toList).symm

/-- A blank line in the middle, a last line without a feed, and a letter cut in two by a feed. -/
theorem lines_of_bytes_blank_line :
    let bytes := "S é\n\n".toUTF8
    let cut : ByteArray := ⟨#[0x53, 0xC3, 10, 0xA9, 10]⟩
    lines cut = .error .notUtf8 ∧
    (∃ ls, lines bytes = .ok ls ∧ ls.length = 2) ∧
    lines (bytes ++ "C\r".toUTF8) =
      .ok [⟨1, "S", ["é"]⟩, ⟨2, "", []⟩, ⟨3, "C", []⟩] ∧
    lines "S é\r\n\n".toUTF8 = lines bytes := by
  intro bytes cut
  obtain ⟨_, read, append, returns, _⟩ := lines_of_bytes bytes
  refine ⟨(lines_of_bytes cut).1.mpr (by decide +kernel), ?_, ?_, ?_⟩
  · obtain ⟨ls, hl, length, _⟩ := read _ rfl
    exact ⟨ls, hl, length.trans (by decide +kernel)⟩
  · have first : lines bytes = .ok [⟨1, "S", ["é"]⟩, ⟨2, "", []⟩] :=
      (lines_toUTF8 _).trans (congrArg _ (by decide +kernel))
    have second : lines "C\r".toUTF8 = .ok [⟨1, "C", []⟩] :=
      (lines_toUTF8 _).trans (congrArg _ (by decide +kernel))
    have ended : bytes.data.back? = some 10 := by decide +kernel
    exact (append _ (.inr ended) _).mpr ⟨_, _, first, second, rfl⟩
  · have more : Returned [0x53, 0x20, 0xC3, 0xA9, 10, 10] [0x53, 0x20, 0xC3, 0xA9, 13, 10, 10] :=
      .keep _ (.keep _ (.keep _ (.keep _ (.put (.keep _ .nil)))))
    exact returns _ more

end Script

open Text

namespace Line

/-- The line of some words. Without a word, the key is empty. -/
def ofWords (number : Nat) : List (List Char) → Line
  | [] => ⟨number, "", []⟩
  | key :: args => ⟨number, String.ofList key, args.map String.ofList⟩

theorem ofText_eq_ofWords (number : Nat) (text : String) :
    ofText number text = ofWords number (words text.toList) := by
  unfold ofText
  rw [words_dropReturn]
  cases words text.toList
  all_goals rfl

@[simp] theorem number_ofWords (number : Nat) (ws : List (List Char)) :
    (ofWords number ws).number = number := by
  cases ws
  all_goals rfl

/-- A word is no empty key. -/
theorem key_ofWords_eq_empty_iff {number : Nat} {ws : List (List Char)} (h : ∀ w ∈ ws, Word w) :
    (ofWords number ws).key = "" ↔ ws = [] := by
  cases ws with
  | nil => exact iff_of_true rfl rfl
  | cons key args =>
    have filled : key ≠ [] := (h key List.mem_cons_self).1
    refine iff_of_false ?_ (List.cons_ne_nil key args)
    intro empty
    exact filled (String.ofList_injective empty)

theorem ofWords_inj {number : Nat} {ws vs : List (List Char)} (hws : ∀ w ∈ ws, Word w)
    (hvs : ∀ v ∈ vs, Word v) (h : ofWords number ws = ofWords number vs) : ws = vs := by
  cases ws with
  | nil => exact ((key_ofWords_eq_empty_iff hvs).mp (congrArg Line.key h).symm).symm
  | cons key args =>
    cases vs with
    | nil => exact (key_ofWords_eq_empty_iff hws).mp (congrArg Line.key h)
    | cons key' args' =>
      obtain ⟨_, keys, rest⟩ := Line.mk.inj h
      have args_eq : args = args' :=
        (List.map_inj_right fun _ _ h => String.ofList_injective h).mp rest
      rw [String.ofList_injective keys, args_eq]

/-- A text is read as its number and its words, which are the maximal runs without blanks. However
words are spread in a text, they are read back. -/
theorem ofText_words (number : Nat) (text : String) :
    let line := ofText number text
    ∃ ws : List (List Char), line = ofWords number ws ∧ Spread ws text.toList ∧
      (∀ w, w ∈ ws ↔ Run text.toList w) ∧ ws.flatten = text.toList.filter (!isBlank ·) ∧
      line.number = number ∧ (line.key = "" ↔ ∀ w, ¬Run text.toList w) ∧
      (line.key = "" → line.args = []) ∧ ofText number (text ++ "\r") = line ∧
      ∀ key args, (∀ w ∈ key :: args, Word w) →
        (line = ⟨number, String.ofList key, args.map String.ofList⟩ ↔
          Spread (key :: args) text.toList) := by
  intro line
  have parts : line = ofWords number (words text.toList) := ofText_eq_ofWords number text
  have hws : ∀ w ∈ words text.toList, Word w := fun _ => word_of_mem_words
  have empty : line.key = "" ↔ words text.toList = [] := by
    rw [parts]
    exact key_ofWords_eq_empty_iff hws
  refine ⟨words text.toList, parts, spread_words _, fun _ => mem_words_iff, flatten_words _, ?_, ?_,
    ?_, ofText_append_return number text, ?_⟩
  · rw [parts, number_ofWords]
  · rw [empty, List.eq_nil_iff_forall_not_mem]
    simp only [mem_words_iff]
  · intro blank
    rw [parts, empty.mp blank]
    rfl
  · intro key args hks
    rw [spread_iff hks, parts]
    constructor
    · intro same
      exact ofWords_inj hws hks same
    · intro same
      rw [same]
      rfl

/-- Blanks of one and three bytes, a line break and a return. -/
theorem ofText_words_odd_blanks :
    let text := "\u00a0 L\t1\u30002\n\u2028Ä\u0085\r"
    (∀ w ∈ [['L'], ['1'], ['2'], ['Ä']], Word w) ∧
      Spread [['L'], ['1'], ['2'], ['Ä']] text.toList ∧
      ofText 7 text = ⟨7, "L", ["1", "2", "Ä"]⟩ := by
  intro text
  have hws : ∀ w ∈ [['L'], ['1'], ['2'], ['Ä']], Word w := by decide
  have spread : Spread [['L'], ['1'], ['2'], ['Ä']] text.toList := by
    have fourth : Trailing [['Ä']] ['\n', '\u2028', 'Ä', '\u0085', '\r'] :=
      @Trailing.cons ['\n', '\u2028'] _ _ _ (by decide) (by decide) (.nil (by decide))
    have third : Trailing [['2'], ['Ä']] ('\u3000' :: '2' :: _) :=
      @Trailing.cons ['\u3000'] _ _ _ (by decide) (by decide) fourth
    have second : Trailing [['1'], ['2'], ['Ä']] ('\t' :: '1' :: _) :=
      @Trailing.cons ['\t'] _ _ _ (by decide) (by decide) third
    have first : Spread [['L'], ['1'], ['2'], ['Ä']] ('\u00a0' :: ' ' :: 'L' :: _) :=
      @Spread.cons ['\u00a0', ' '] _ _ _ (by decide) second
    have chars : text.toList = _ := String.toList_ofList
    rw [chars]
    exact first
  obtain ⟨_, _, _, _, _, _, _, _, _, read⟩ := ofText_words 7 text
  exact ⟨hws, spread, (read _ _ hws).mpr spread⟩

end Line

end PixelScript
