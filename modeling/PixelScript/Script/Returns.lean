import PixelScript.Script.Reading

namespace PixelScript

/-- A carriage return at the end is a blank like any other. -/
theorem Line.ofText_append_return (number : Nat) (text : String) :
    ofText number (text ++ "\r") = ofText number text := by
  have words : Text.words (text ++ "\r").toList = Text.words text.toList := by
    rw [String.toList_append]
    have cut := Text.words_append_blank text.toList [] (show Text.isBlank '\r' by decide)
    simpa [Text.words] using cut
  unfold ofText
  rw [words_dropReturn, words_dropReturn, words]

/-- A carriage return has a code of its own, so the code in front of it is whole. -/
theorem Text.exists_text_of_append_return {bytes : List UInt8} {cs : List Char}
    (h : cs.flatMap String.utf8EncodeChar = bytes ++ [13]) :
    ∃ ds : List Char, bytes = ds.flatMap String.utf8EncodeChar := by
  cases List.eq_nil_or_concat cs with
  | inl hn =>
    rw [hn] at h
    simp at h
  | inr hc =>
    obtain ⟨ds, c, hcs⟩ := hc
    rw [hcs, List.concat_eq_append, List.flatMap_append, List.flatMap_singleton] at h
    have last : 13 ∈ String.utf8EncodeChar c := by
      have ends := congrArg List.getLast? h
      rw [List.getLast?_append, List.getLast?_append] at ends
      cases hl : (String.utf8EncodeChar c).getLast? with
      | none => exact absurd (List.getLast?_eq_none_iff.mp hl) String.utf8EncodeChar_ne_nil
      | some byte =>
        rw [hl] at ends
        cases ends
        exact List.mem_of_getLast? hl
    have ending : c = '\r' := Char.toNat_inj.mp (toNat_of_mem_utf8EncodeChar (by decide) last)
    rw [ending] at h
    exact ⟨ds, (List.append_inj_left' h rfl).symm⟩

theorem Text.fromUTF8?_append_return (bytes : List UInt8) :
    String.fromUTF8? (bytes ++ [13]).toByteArray =
      (String.fromUTF8? bytes.toByteArray).map (· ++ "\r") := by
  cases h : String.fromUTF8? bytes.toByteArray with
  | some text =>
    have code := fromUTF8?_eq_some_iff.mp h
    apply fromUTF8?_eq_some_iff.mpr
    rw [List.toByteArray_append, code, String.toUTF8_eq_toByteArray, String.toUTF8_eq_toByteArray,
      String.toByteArray_append]
    rfl
  | none =>
    cases h' : String.fromUTF8? (bytes ++ [13]).toByteArray with
    | none => rfl
    | some text =>
      have code := congrArg (·.data.toList) (fromUTF8?_eq_some_iff.mp h')
      rw [List.toList_data_toByteArray, toList_toUTF8] at code
      obtain ⟨ds, hd⟩ := exists_text_of_append_return code.symm
      rw [hd, fromUTF8?_flatMap] at h
      cases h

namespace Script

/-- The same bytes with a carriage return put in before some of the feeds. -/
inductive Returned : List UInt8 → List UInt8 → Prop
  | nil : Returned [] []
  | keep (byte : UInt8) {as bs : List UInt8} : Returned as bs → Returned (byte :: as) (byte :: bs)
  | put {as bs : List UInt8} : Returned as bs → Returned (10 :: as) (13 :: 10 :: bs)

def chomp (segment : List UInt8) : List UInt8 :=
  if segment.getLast? = some 13 then segment.dropLast else segment

/-- The lines as a reader hands them over: a feed ends a line, and one carriage return right before
it goes with it. -/
def chomped (bytes : List UInt8) : List (List UInt8) :=
  let parts := bytes.splitOn 10
  parts.dropLast.map chomp ++ parts.getLast?.toList.filter (· ≠ [])

theorem linesFrom_cons_return (number : Nat) (s : List UInt8) (ss : List (List UInt8)) :
    linesFrom number ((s ++ [13]) :: ss) = linesFrom number (s :: ss) := by
  rw [linesFrom, linesFrom, Text.fromUTF8?_append_return]
  cases String.fromUTF8? s.toByteArray with
  | none => rfl
  | some text => simp only [Option.map_some, Line.ofText_append_return]

theorem linesFrom_cons_chomp (number : Nat) (s : List UInt8) (ss : List (List UInt8)) :
    linesFrom number (chomp s :: ss) = linesFrom number (s :: ss) := by
  unfold chomp
  split
  · next last =>
    obtain ⟨bytes, hs⟩ := List.getLast?_eq_some_iff.mp last
    rw [hs, List.dropLast_concat, linesFrom_cons_return]
  · rfl

theorem linesFrom_cons_congr {number : Nat} {s : List UInt8} {ss ts : List (List UInt8)}
    (h : linesFrom (number + 1) ss = linesFrom (number + 1) ts) :
    linesFrom number (s :: ss) = linesFrom number (s :: ts) := by
  rw [linesFrom, linesFrom, h]

theorem Returned.eq_of_not_mem {as bs : List UInt8} (h : Returned as bs) (hs : 10 ∉ as) :
    bs = as := by
  induction h with
  | nil => rfl
  | keep byte _ ih => rw [ih fun hm => hs (List.mem_cons_of_mem byte hm)]
  | put _ _ => exact absurd List.mem_cons_self hs

/-- A line break with or without a carriage return stands where the first feed stood. -/
theorem Returned.cut {as cs bs : List UInt8} (h : Returned (as ++ 10 :: cs) bs) (hs : 10 ∉ as) :
    ∃ ds, Returned cs ds ∧ (bs = as ++ 10 :: ds ∨ bs = as ++ [13] ++ 10 :: ds) := by
  induction as generalizing bs with
  | nil =>
    cases h with
    | keep _ rest => exact ⟨_, rest, .inl rfl⟩
    | put rest => exact ⟨_, rest, .inr rfl⟩
  | cons a as ih =>
    have within : 10 ∉ as := fun hm => hs (List.mem_cons_of_mem a hm)
    cases h with
    | keep _ rest =>
      obtain ⟨ds, hd, hb⟩ := ih rest within
      refine ⟨ds, hd, ?_⟩
      cases hb with
      | inl same => exact .inl (congrArg (a :: ·) same)
      | inr more => exact .inr (congrArg (a :: ·) more)
    | put _ => exact absurd List.mem_cons_self hs

theorem linesFrom_returned {as bs : List UInt8} (h : Returned as bs) (number : Nat) :
    linesFrom number (segments bs) = linesFrom number (segments as) := by
  induction as using byLines (10 : UInt8) generalizing bs number with
  | nothing => rw [h.eq_of_not_mem (by simp)]
  | unended as hs _ => rw [h.eq_of_not_mem hs]
  | ended as cs hs ih =>
    obtain ⟨ds, rest, hb⟩ := h.cut hs
    have cut (line : List UInt8) (hl : 10 ∉ line) (after : List UInt8) :
        segments (line ++ 10 :: after) = line :: segments after := pieces_append_cons hl after
    have further := linesFrom_cons_congr (s := as) (ih rest (number + 1))
    rw [cut as hs]
    cases hb with
    | inl same => rw [same, cut as hs, further]
    | inr more =>
      have within : 10 ∉ as ++ [13] := by simpa using hs
      rw [more, cut _ within, linesFrom_cons_return, further]

/-- Carriage returns before feeds make no difference to how bytes are read, if they can be. -/
theorem lines_returned {a b : ByteArray} (h : Returned a.data.toList b.data.toList) :
    lines b = lines a :=
  linesFrom_returned h 1

theorem chomped_append_cons {as : List UInt8} (h : 10 ∉ as) (bs : List UInt8) :
    chomped (as ++ 10 :: bs) = chomp as :: chomped bs := by
  unfold chomped
  have hn : bs.splitOn 10 ≠ [] := List.splitOn_ne_nil 10 bs
  rw [List.splitOn_append_cons_self_of_not_mem h]
  simp only [List.getLast?_cons_of_ne_nil hn, List.dropLast_cons_of_ne_nil hn]
  rfl

theorem linesFrom_chomped (number : Nat) (bytes : List UInt8) :
    linesFrom number (chomped bytes) = linesFrom number (segments bytes) := by
  induction bytes using byLines (10 : UInt8) generalizing number with
  | nothing => rfl
  | unended as hs hn =>
    have whole : segments as = [as] := pieces_of_not_mem hs hn
    rw [whole, chomped, List.splitOn_eq_singleton hs]
    simp [hn]
  | ended as bs hs ih =>
    have cut : segments (as ++ 10 :: bs) = as :: segments bs := pieces_append_cons hs bs
    rw [chomped_append_cons hs, cut, linesFrom_cons_chomp, linesFrom_cons_congr (ih (number + 1))]

end Script

end PixelScript
