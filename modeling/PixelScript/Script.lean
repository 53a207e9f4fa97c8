import PixelScript.Fallible
import PixelScript.Line
import PixelScript.Text.Utf8

namespace PixelScript.Script

/-- The bytes between line feeds. Nothing follows a feed at the end. -/
def segments (bytes : List UInt8) : List (List UInt8) :=
  let parts := bytes.splitOn 10
  if parts.getLast? = some [] then parts.dropLast else parts

/-- Each segment is decoded by itself. -/
def linesFrom (number : Nat) : List (List UInt8) → Except IoError (List Line)
  | [] => .ok []
  | s :: ss =>
    match String.fromUTF8? s.toByteArray with
    | none => .error .notUtf8
    | some text => (linesFrom (number + 1) ss).map (Line.ofText number text :: ·)

/-- Every line of a script, blank ones too, numbered from 1. -/
def lines (bytes : ByteArray) : Except IoError (List Line) :=
  linesFrom 1 (segments bytes.data.toList)

/-- A list cut at each `stop`. Nothing follows one at the end. -/
def pieces {α : Type} [DecidableEq α] (stop : α) (as : List α) : List (List α) :=
  let parts := as.splitOn stop
  if parts.getLast? = some [] then parts.dropLast else parts

/-- Lines of text, numbered on from a first number. -/
def numbered (number : Nat) : List (List Char) → List Line
  | [] => []
  | cs :: css => Line.ofText number (String.ofList cs) :: numbered (number + 1) css

section Pieces

variable {α : Type} [DecidableEq α] {stop : α}

theorem pieces_append_cons {as : List α} (h : stop ∉ as) (bs : List α) :
    pieces stop (as ++ stop :: bs) = as :: pieces stop bs := by
  unfold pieces
  have hn : bs.splitOn stop ≠ [] := List.splitOn_ne_nil stop bs
  rw [List.splitOn_append_cons_self_of_not_mem h]
  simp only [List.getLast?_cons_of_ne_nil hn, List.dropLast_cons_of_ne_nil hn]
  split <;> rfl

theorem pieces_of_not_mem {as : List α} (h : stop ∉ as) (hn : as ≠ []) : pieces stop as = [as] := by
  unfold pieces
  rw [List.splitOn_eq_singleton h]
  simp [hn]

/-- What holds of nothing, of a line without an end, and of a line in front of others holds of any
list. -/
theorem byLines {P : List α → Prop} (stop : α) (nothing : P [])
    (unended : ∀ as, stop ∉ as → as ≠ [] → P as)
    (ended : ∀ as bs, stop ∉ as → P bs → P (as ++ stop :: bs)) (as : List α) : P as := by
  by_cases h : stop ∈ as
  · obtain ⟨bs, cs, parts, within⟩ := List.eq_append_cons_of_mem h
    have rest : P cs := byLines stop nothing unended ended cs
    rw [parts]
    exact ended bs cs within rest
  · by_cases hn : as = []
    · rw [hn]
      exact nothing
    · exact unended as h hn
termination_by as.length
decreasing_by
  rw [parts, List.length_append, List.length_cons]
  omega

end Pieces

/-- Cutting the code of a text gives the codes of its lines. -/
theorem pieces_flatMap (cs : List Char) :
    pieces 10 (cs.flatMap String.utf8EncodeChar) =
      (pieces '\n' cs).map (·.flatMap String.utf8EncodeChar) := by
  induction cs using byLines '\n' with
  | nothing => rfl
  | unended cs h hn =>
    have within : 10 ∉ cs.flatMap String.utf8EncodeChar := fun hc => h (Text.lineFeed_mem_flatMap.mp hc)
    have full : cs.flatMap String.utf8EncodeChar ≠ [] := by
      cases cs with
      | nil => exact absurd rfl hn
      | cons c cs => simp
    rw [pieces_of_not_mem within full, pieces_of_not_mem h hn]
    rfl
  | ended as bs h ih =>
    have code : (as ++ '\n' :: bs).flatMap String.utf8EncodeChar =
        as.flatMap String.utf8EncodeChar ++ 10 :: bs.flatMap String.utf8EncodeChar := by
      rw [List.flatMap_append, List.flatMap_cons]
      rfl
    have within : 10 ∉ as.flatMap String.utf8EncodeChar := fun hc => h (Text.lineFeed_mem_flatMap.mp hc)
    rw [code, pieces_append_cons within, ih, pieces_append_cons h]
    rfl

theorem linesFrom_encoded (number : Nat) (css : List (List Char)) :
    linesFrom number (css.map (·.flatMap String.utf8EncodeChar)) = .ok (numbered number css) := by
  induction css generalizing number with
  | nil => rfl
  | cons cs css ih =>
    rw [List.map_cons, linesFrom, Text.fromUTF8?_flatMap]
    simp only [ih]
    rfl

/-- A script in UTF-8 has the lines of its text. -/
theorem lines_toUTF8 (text : String) :
    lines text.toUTF8 = .ok (numbered 1 (pieces '\n' text.toList)) := by
  unfold lines
  rw [Text.toList_toUTF8]
  change linesFrom 1 (pieces 10 _) = _
  rw [pieces_flatMap, linesFrom_encoded]

end PixelScript.Script
