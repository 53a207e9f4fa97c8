import PixelScript.Command.Coverage
import PixelScript.Line.Faults
import PixelScript.Proofs.Grammar
import PixelScript.Script.Reading
import PixelScript.Text.Lines

namespace PixelScript

namespace Line

/-- The lines that reading gives, of a text by itself or of a script. -/
inductive IsRead : Line → Prop
  | ofText (number : Nat) (text : String) : IsRead (.ofText number text)
  | ofScript {bytes : ByteArray} {ls : List Line} {line : Line} :
      Script.lines bytes = .ok ls → line ∈ ls → IsRead line

theorem exists_text_of_mem {number : Nat} {ss : List (List UInt8)} {ls : List Line}
    (h : Script.linesFrom number ss = .ok ls) {line : Line} (hl : line ∈ ls) :
    ∃ n text, line = ofText n text := by
  induction ss generalizing number ls with
  | nil =>
    cases h
    cases hl
  | cons s ss ih =>
    obtain ⟨text, rest, _, hr, rfl⟩ := Script.linesFrom_cons_eq_ok_iff.mp h
    cases hl with
    | head => exact ⟨number, text, rfl⟩
    | tail _ hl => exact ih hr hl

theorem IsRead.exists_text {line : Line} (h : line.IsRead) : ∃ n text, line = Line.ofText n text := by
  cases h with
  | ofText number text => exact ⟨number, text, rfl⟩
  | ofScript read hl => exact exists_text_of_mem read hl

theorem IsRead.unbroken {line : Line} (h : line.IsRead) :
    ∀ word ∈ line.key :: line.args, Text.Unbroken word := by
  obtain ⟨n, text, rfl⟩ := h.exists_text
  unfold Line.ofText
  split
  · intro word hw
    rw [List.mem_singleton] at hw
    simp [hw, Text.Unbroken]
  · next key args parts =>
    intro word listed
    change word ∈ key :: args at listed
    rw [← parts] at listed
    obtain ⟨w, hw, rfl⟩ := List.mem_map.mp listed
    intro c hc
    rw [String.toList_ofList] at hc
    exact Text.words_unbroken hw c hc

/-- The color of a command stands on its line. -/
theorem color_mem_args {line : Line} {k : Command} {color : Color} (h : line.check = .ok k)
    (hk : color ∈ k.color?) : color.token ∈ line.args := by
  have asks := asks_of_command (mapError_eq_ok_iff.mp h)
  obtain ⟨number, key, args⟩ := line
  cases asks with
  | create _ _ => cases hk
  | clear => cases hk
  | dot _ _ hc | vertical _ _ _ hc | horizontal _ _ _ hc =>
    cases hk
    simp [hc.2]
  | print => cases hk

theorem IsRead.color {line : Line} (hl : line.IsRead) {k : Command} (h : line.check = .ok k) :
    ∀ color ∈ k.color?, Text.Unbroken color.token :=
  fun _ hk => hl.unbroken _ (List.mem_cons_of_mem _ (color_mem_args h hk))

end Line

open Text

/-- What can be wrong on a line with the key of a verb. -/
def Verb.faults (verb : Verb) : List Fault :=
  [.arity verb, .invalidColor verb, .notNumeric verb, .outOfRange]

namespace Line

variable {line : Line} {fault : Fault}

theorem coordinateFault_mem_faults (verb : Verb) (readings : List Coordinate.Reading) :
    coordinateFault verb readings ∈ verb.faults := by
  unfold coordinateFault
  split
  · simp [Verb.faults]
  · simp [Verb.faults]

/-- Only a key that no verb has is unsupported, and it is the key of the line. -/
theorem fault_of_command (h : line.command = .error fault) :
    fault = .unsupported line.key ∨ ∃ verb : Verb, verb.key = line.key ∧ fault ∈ verb.faults := by
  by_cases known : ∃ verb : Verb, verb.key = line.key
  · obtain ⟨verb, hv⟩ := known
    refine .inr ⟨verb, hv, ?_⟩
    by_cases ha : line.args.length = verb.arity
    · obtain ⟨_, refused⟩ | ⟨_, ⟨_, ended⟩ | ⟨_, k, taken⟩⟩ := command_settled hv ha
      · cases refused.symm.trans h
        simp [Verb.faults]
      · cases ended.symm.trans h
        exact coordinateFault_mem_faults _ _
      · cases taken.symm.trans h
    · cases (command_of_arity hv ha).symm.trans h
      simp [Verb.faults]
  · cases (command_of_unsupported (not_exists.mp known)).symm.trans h
    exact .inl rfl

/-- The lines that are rejected. -/
def rejected (ls : List Line) : List Line := ls.filter (·.report?.isSome)

/-- There is a report for each rejected line, in order, and it has the number of the line. -/
theorem map_check_rejected (ls : List Line) :
    (rejected ls).map (fun line => (line.number, line.check)) =
      (reports ls).map fun r => (r.line, .error r) := by
  induction ls with
  | nil => rfl
  | cons line ls ih =>
    unfold rejected at ih ⊢
    cases h : line.check with
    | ok k =>
      have taken : ¬line.report?.isSome := by simp [report?, h]
      rw [List.filter_cons, if_neg taken, reports_cons_of_ok h, ih]
    | error r =>
      have refused : line.report?.isSome := by simp [report?, h]
      have number : line.number = r.line := by
        obtain ⟨fault, _, hr⟩ := mapError_eq_error_iff.mp h
        rw [← hr]
        rfl
      rw [List.filter_cons, if_pos refused, List.map_cons, reports_cons_of_error h, ih, h, number]
      rfl

theorem pairwise_line_reports {ls : List Line} (h : ls.Pairwise (·.number < ·.number)) :
    ((reports ls).map Report.line).Pairwise (· < ·) := by
  have numbers : (reports ls).map Report.line = (rejected ls).map Line.number := by
    have both := congrArg (List.map Prod.fst) (map_check_rejected ls)
    rw [List.map_map, List.map_map] at both
    exact both.symm
  rw [numbers, List.pairwise_map]
  exact h.sublist List.filter_sublist

theorem exists_of_mem_reports {ls : List Line} {r : Report} (h : r ∈ reports ls) :
    ∃ line ∈ ls, line.check = .error r := by
  obtain ⟨line, hl, found⟩ := List.mem_filterMap.mp h
  refine ⟨line, hl, ?_⟩
  unfold report? at found
  split at found
  · cases found
  · next refused =>
    cases found
    exact refused

theorem reports_eq_nil_iff {ls : List Line} :
    reports ls = [] ↔ ∀ line ∈ ls, ∀ r, line.check ≠ .error r := by
  rw [reports, List.filterMap_eq_nil_iff]
  refine forall₂_congr fun line _ => ?_
  unfold report?
  cases line.check with
  | ok k => simp
  | error r => simp

end Line

section Message

theorem Verb.spaced_key (verb : Verb) : Spaced verb.key := by
  cases verb
  all_goals exact spaced_ofList (by decide +kernel)

theorem Verb.spaced_commandKey (verb : Verb) : Spaced ("Command key " ++ verb.key) :=
  (spaced_ofList (by decide +kernel)).append verb.spaced_key

/-- Messages are words with spaces between them, as far as keys are. -/
theorem Fault.spaced_message {fault : Fault}
    (h : ∀ key, fault = .unsupported key → Unbroken key) : Spaced fault.message := by
  cases fault with
  | unsupported key =>
    change Spaced (if key = "" then _ else "Unsupported command key " ++ key)
    split
    · exact spaced_ofList (by decide +kernel)
    · exact (spaced_ofList (by decide +kernel)).append (h key rfl).spaced
  | arity verb =>
    change Spaced (if verb.arity = 0 then
      "Command key " ++ verb.key ++ " does not require any parameters"
      else "Command key " ++ verb.key ++ " requires " ++ toString verb.arity ++ " parameters")
    split
    · exact verb.spaced_commandKey.append (spaced_ofList (by decide +kernel))
    · have number : Spaced (toString verb.arity) := (unbroken_toString _).spaced
      exact ((verb.spaced_commandKey.append (spaced_ofList (by decide +kernel))).append
        number).append (spaced_ofList (by decide +kernel))
  | notNumeric verb =>
    cases verb with
    | create => exact spaced_ofList (by decide +kernel)
    | clear | dot | vertical | horizontal | print =>
      exact (Verb.spaced_commandKey _).append (spaced_ofList (by decide +kernel))
  | outOfRange => exact spaced_ofList (by decide +kernel)
  | invalidColor verb =>
    have place : Spaced (if verb.arity = 3 then "Third" else "Fourth") := by
      split
      · exact spaced_ofList (by decide +kernel)
      · exact spaced_ofList (by decide +kernel)
    exact ((place.append (spaced_ofList (by decide +kernel))).append verb.spaced_key).append
      (spaced_ofList (by decide +kernel))

/-- The key of a line is the only text of the line in a message about it. -/
theorem Line.IsRead.spaced_message {line : Line} (hl : line.IsRead) {r : Report}
    (h : line.check = .error r) : Spaced r.message := by
  obtain ⟨fault, refused, hr⟩ := mapError_eq_error_iff.mp h
  rw [← hr]
  apply Fault.spaced_message
  intro key unsupported
  rw [unsupported] at refused
  obtain own | ⟨verb, _, known⟩ := fault_of_command refused
  · cases own
    exact hl.unbroken _ List.mem_cons_self
  · simp [Verb.faults] at known

end Message

end PixelScript
