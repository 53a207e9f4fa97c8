import PixelScript.Fallible
import PixelScript.Script

namespace PixelScript

/-- The same line with so many more lines in front of it. -/
def Line.down (n : Nat) (line : Line) : Line := { line with number := line.number + n }

theorem Line.ofText_add (number n : Nat) (text : String) :
    ofText (number + n) text = (ofText number text).down n := by
  unfold ofText
  split <;> rfl

theorem Line.number_ofText (number : Nat) (text : String) : (ofText number text).number = number := by
  unfold ofText
  split <;> rfl

namespace Script

section Pieces

variable {α : Type} [DecidableEq α]

/-- There is a piece for each stop, and one for what follows the last stop, if anything does. -/
theorem length_pieces (stop : α) (as : List α) :
    (pieces stop as).length =
      as.count stop + if as = [] ∨ as.getLast? = some stop then 0 else 1 := by
  induction as using byLines stop with
  | nothing => simp [pieces]
  | unended as h hn =>
    have last : as.getLast? ≠ some stop := fun hl => h (List.mem_of_getLast? hl)
    rw [pieces_of_not_mem h hn, List.count_eq_zero_of_not_mem h]
    simp [hn, last]
  | ended as bs h ih =>
    rw [pieces_append_cons h, List.length_cons, ih, List.count_append,
      List.count_eq_zero_of_not_mem h, List.count_cons_self, List.getLast?_append]
    by_cases hb : bs = []
    · simp [hb]
    · rw [List.getLast?_cons_of_ne_nil hb]
      simp [hb, Nat.add_right_comm]

/-- The pieces are what stands between the stops, in order. -/
theorem pieces_prefix_splitOn (stop : α) (as : List α) : pieces stop as <+: as.splitOn stop := by
  unfold pieces
  dsimp only
  split
  · exact List.dropLast_prefix _
  · exact List.prefix_rfl

/-- After a stop the pieces start anew. -/
theorem pieces_append {stop : α} {as : List α} (h : as = [] ∨ as.getLast? = some stop)
    (bs : List α) : pieces stop (as ++ bs) = pieces stop as ++ pieces stop bs := by
  induction as using byLines stop with
  | nothing => simp [pieces]
  | unended as hs hn =>
    cases h with
    | inl empty => exact absurd empty hn
    | inr last => exact absurd (List.mem_of_getLast? last) hs
  | ended as cs hs ih =>
    have rest : cs = [] ∨ cs.getLast? = some stop := by
      by_cases hc : cs = []
      · exact .inl hc
      · right
        simpa [List.getLast?_append, List.getLast?_cons_of_ne_nil hc, hc] using h
    rw [List.append_assoc, List.cons_append, pieces_append_cons hs, pieces_append_cons hs, ih rest]
    rfl

end Pieces

theorem length_numbered (number : Nat) (css : List (List Char)) :
    (numbered number css).length = css.length := by
  induction css generalizing number with
  | nil => rfl
  | cons cs css ih => rw [numbered, List.length_cons, List.length_cons, ih]

theorem getElem?_numbered (number : Nat) (css : List (List Char)) (i : Nat) :
    (numbered number css)[i]? =
      css[i]?.map fun cs => Line.ofText (number + i) (String.ofList cs) := by
  induction css generalizing number i with
  | nil => rfl
  | cons cs css ih =>
    cases i with
    | zero => rfl
    | succ i =>
      rw [numbered, List.getElem?_cons_succ, List.getElem?_cons_succ, ih, Nat.add_right_comm]
      rfl

section LinesFrom

variable {number : Nat} {s : List UInt8} {ss ts : List (List UInt8)} {ls : List Line}

theorem linesFrom_cons_eq_ok_iff :
    linesFrom number (s :: ss) = .ok ls ↔
      ∃ text rest, String.fromUTF8? s.toByteArray = some text ∧
        linesFrom (number + 1) ss = .ok rest ∧ ls = Line.ofText number text :: rest := by
  rw [linesFrom]
  cases String.fromUTF8? s.toByteArray with
  | none => simp
  | some text =>
    cases linesFrom (number + 1) ss with
    | error e => simp [Except.map]
    | ok rest => simp [Except.map, eq_comm]

/-- Nothing but a segment that is not UTF-8 keeps segments from being read. -/
theorem linesFrom_eq_error {e : IoError} (h : linesFrom number ss = .error e) : e = .notUtf8 := by
  induction ss generalizing number with
  | nil => cases h
  | cons s ss ih =>
    rw [linesFrom] at h
    cases hs : String.fromUTF8? s.toByteArray with
    | none =>
      rw [hs] at h
      cases h
      rfl
    | some text =>
      rw [hs] at h
      cases hr : linesFrom (number + 1) ss with
      | error d =>
        rw [hr] at h
        cases h
        exact ih hr
      | ok rest =>
        rw [hr] at h
        cases h

theorem pairwise_number_linesFrom (h : linesFrom number ss = .ok ls) :
    (∀ line ∈ ls, number ≤ line.number) ∧ ls.Pairwise (·.number < ·.number) := by
  induction ss generalizing number ls with
  | nil =>
    cases h
    exact ⟨by simp, .nil⟩
  | cons s ss ih =>
    obtain ⟨text, rest, _, hr, hl⟩ := linesFrom_cons_eq_ok_iff.mp h
    obtain ⟨after, increasing⟩ := ih hr
    have own : (Line.ofText number text).number = number := Line.number_ofText number text
    rw [hl]
    constructor
    · rw [List.forall_mem_cons]
      exact ⟨Nat.le_of_eq own.symm, fun line hline => Nat.le_of_succ_le (after line hline)⟩
    · refine increasing.cons fun line hline => ?_
      rw [own]
      exact after line hline

theorem length_of_linesFrom (h : linesFrom number ss = .ok ls) : ls.length = ss.length := by
  induction ss generalizing number ls with
  | nil =>
    cases h
    rfl
  | cons s ss ih =>
    obtain ⟨text, rest, _, hr, hl⟩ := linesFrom_cons_eq_ok_iff.mp h
    rw [hl, List.length_cons, List.length_cons, ih hr]

/-- Lines further down differ in their numbers only. -/
theorem linesFrom_add_eq_ok_iff {n : Nat} :
    linesFrom (number + n) ss = .ok ls ↔
      ∃ as, linesFrom number ss = .ok as ∧ ls = as.map (Line.down n) := by
  induction ss generalizing number ls with
  | nil => simp [linesFrom, eq_comm]
  | cons s ss ih =>
    rw [linesFrom_cons_eq_ok_iff]
    constructor
    · rintro ⟨text, rest, hs, hr, hl⟩
      rw [Nat.add_right_comm] at hr
      obtain ⟨as, ha, hrest⟩ := ih.mp hr
      refine ⟨_, linesFrom_cons_eq_ok_iff.mpr ⟨text, as, hs, ha, rfl⟩, ?_⟩
      rw [hl, hrest, Line.ofText_add]
      rfl
    · rintro ⟨as, ha, hl⟩
      obtain ⟨text, rest, hs, hr, has⟩ := linesFrom_cons_eq_ok_iff.mp ha
      refine ⟨text, rest.map (Line.down n), hs, ?_, ?_⟩
      · rw [Nat.add_right_comm]
        exact ih.mpr ⟨rest, hr, rfl⟩
      · rw [hl, has, Line.ofText_add]
        rfl

theorem linesFrom_append_eq_ok_iff :
    linesFrom number (ss ++ ts) = .ok ls ↔
      ∃ as bs, linesFrom number ss = .ok as ∧ linesFrom (number + ss.length) ts = .ok bs ∧
        ls = as ++ bs := by
  induction ss generalizing number ls with
  | nil => simp [linesFrom]
  | cons s ss ih =>
    rw [List.cons_append, linesFrom_cons_eq_ok_iff, List.length_cons, Nat.add_comm ss.length,
      ← Nat.add_assoc]
    constructor
    · rintro ⟨text, rest, hs, hr, hl⟩
      obtain ⟨as, bs, ha, hb, hrest⟩ := ih.mp hr
      refine ⟨_, bs, linesFrom_cons_eq_ok_iff.mpr ⟨text, as, hs, ha, rfl⟩, hb, ?_⟩
      rw [hl, hrest]
      rfl
    · rintro ⟨as, bs, ha, hb, hl⟩
      obtain ⟨text, rest, hs, hr, has⟩ := linesFrom_cons_eq_ok_iff.mp ha
      refine ⟨text, rest ++ bs, hs, ih.mpr ⟨rest, bs, hr, hb, rfl⟩, ?_⟩
      rw [hl, has]
      rfl

/-- Segments that can be read are the codes of texts. -/
theorem exists_texts_of_linesFrom (h : linesFrom number ss = .ok ls) :
    ∃ css : List (List Char), ss = css.map (·.flatMap String.utf8EncodeChar) := by
  induction ss generalizing number ls with
  | nil => exact ⟨[], rfl⟩
  | cons s ss ih =>
    obtain ⟨text, rest, hs, hr, _⟩ := linesFrom_cons_eq_ok_iff.mp h
    obtain ⟨css, hss⟩ := ih hr
    have code := congrArg (·.data.toList) (Text.fromUTF8?_eq_some_iff.mp hs)
    rw [List.toList_data_toByteArray, Text.toList_toUTF8] at code
    exact ⟨text.toList :: css, by rw [code, hss]; rfl⟩

end LinesFrom

/-- Where every piece of some bytes is the code of a text, so are the bytes: a feed is no part of
the code of another character. -/
theorem exists_text_of_pieces {bytes : List UInt8} {css : List (List Char)}
    (h : pieces 10 bytes = css.map (·.flatMap String.utf8EncodeChar)) :
    ∃ cs : List Char, bytes = cs.flatMap String.utf8EncodeChar := by
  induction bytes using byLines (10 : UInt8) generalizing css with
  | nothing => exact ⟨[], rfl⟩
  | unended bytes hs hn =>
    rw [pieces_of_not_mem hs hn] at h
    obtain ⟨cs, _, _, hc, _⟩ := List.map_eq_cons_iff.mp h.symm
    exact ⟨cs, hc.symm⟩
  | ended as bs hs ih =>
    rw [pieces_append_cons hs] at h
    obtain ⟨cs, rest, _, hc, hr⟩ := List.map_eq_cons_iff.mp h.symm
    obtain ⟨ds, hd⟩ := ih hr.symm
    refine ⟨cs ++ '\n' :: ds, ?_⟩
    rw [List.flatMap_append, List.flatMap_cons, ← hc, hd]
    rfl

/-- What can be read line by line is UTF-8 as a whole. -/
theorem exists_text_of_lines {bytes : ByteArray} {ls : List Line} (h : lines bytes = .ok ls) :
    ∃ text : String, bytes = text.toUTF8 := by
  obtain ⟨css, hss⟩ := exists_texts_of_linesFrom h
  obtain ⟨cs, hcs⟩ := exists_text_of_pieces hss
  refine ⟨String.ofList cs, ByteArray.ext (Array.toList_inj.mp ?_)⟩
  rw [Text.toList_toUTF8, String.toList_ofList]
  exact hcs

/-- The lines of a text are what stands between its line breaks, numbered from 1. -/
theorem exists_lines_of_text (text : String) :
    ∃ ls, lines text.toUTF8 = .ok ls ∧
      ls.length = text.toUTF8.data.toList.count 10 +
        (if text.toUTF8.data.toList = [] ∨ text.toUTF8.data.toList.getLast? = some 10 then 0
          else 1) ∧
      ∀ i < ls.length, ∃ segment, (text.toList.splitOn '\n')[i]? = some segment ∧
        ls[i]? = some (Line.ofText (i + 1) (String.ofList segment)) := by
  refine ⟨numbered 1 (pieces '\n' text.toList), lines_toUTF8 text, ?_, ?_⟩
  · have cut := congrArg List.length (pieces_flatMap text.toList)
    rw [List.length_map, ← Text.toList_toUTF8, length_pieces] at cut
    rw [length_numbered]
    exact cut.symm
  · intro i hi
    rw [length_numbered] at hi
    refine ⟨(pieces '\n' text.toList)[i], ?_, ?_⟩
    · exact List.prefix_iff_getElem?.mp (pieces_prefix_splitOn '\n' text.toList) i hi
    · rw [getElem?_numbered, List.getElem?_eq_getElem hi, Nat.add_comm]
      rfl

/-- Scripts put one behind the other, the first with all its lines ended, are read one after the
other. -/
theorem lines_append_eq_ok_iff {a b : ByteArray} (h : a = .empty ∨ a.data.back? = some 10)
    {ls : List Line} :
    lines (a ++ b) = .ok ls ↔
      ∃ as bs, lines a = .ok as ∧ lines b = .ok bs ∧ ls = as ++ bs.map (Line.down as.length) := by
  have ended : a.data.toList = [] ∨ a.data.toList.getLast? = some 10 := by
    rw [Array.getLast?_toList]
    cases h with
    | inl empty =>
      left
      rw [empty]
      rfl
    | inr feed => exact .inr feed
  have cut : segments (a ++ b).data.toList = segments a.data.toList ++ segments b.data.toList := by
    rw [ByteArray.data_append, Array.toList_append]
    exact pieces_append ended _
  unfold lines
  rw [cut, linesFrom_append_eq_ok_iff]
  constructor
  · intro ⟨as, bs, ha, hb, hl⟩
    obtain ⟨cs, hc, hbs⟩ := linesFrom_add_eq_ok_iff.mp hb
    exact ⟨as, cs, ha, hc, by rw [hl, hbs, length_of_linesFrom ha]⟩
  · intro ⟨as, bs, ha, hb, hl⟩
    refine ⟨as, bs.map (Line.down as.length), ha, ?_, hl⟩
    rw [← length_of_linesFrom ha]
    exact linesFrom_add_eq_ok_iff.mpr ⟨bs, hb, rfl⟩

end Script

end PixelScript
