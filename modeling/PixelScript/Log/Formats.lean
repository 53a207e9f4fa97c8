import PixelScript.Line.Rejected
import PixelScript.Log.File
import PixelScript.Text.Json
import PixelScript.Text.Lines

namespace PixelScript

open Text

namespace Report

/-- The number and the message on a line of a log. -/
def ofText? (text : String) : Option (Nat × String) :=
  match text.toList with
  | 'L' :: 'i' :: 'n' :: 'e' :: ' ' :: cs =>
    match Decimal.read cs with
    | some (line, ' ' :: ':' :: ' ' :: message) => some (line, String.ofList message)
    | _ => none
  | _ => none

/-- A message may hold anything: what stands before it ends with the first colon. -/
theorem ofText?_text (r : Report) : ofText? r.text = some (r.line, r.message) := by
  have parts : r.text.toList = 'L' :: 'i' :: 'n' :: 'e' :: ' ' ::
      (Nat.toDigits 10 r.line ++ ' ' :: ':' :: ' ' :: r.message.toList) := by
    have text : r.text = "Line " ++ toString r.line ++ " : " ++ r.message := rfl
    simp [text, Nat.toString_eq_repr, Nat.toList_repr]
  have read : Decimal.read (Nat.toDigits 10 r.line ++ ' ' :: ':' :: ' ' :: r.message.toList) =
      some (r.line, ' ' :: ':' :: ' ' :: r.message.toList) :=
    Decimal.read_toDigits r.line (by simp)
  simp only [ofText?, parts, read, String.ofList_toList]

theorem spaced_text {r : Report} (h : Spaced r.message) : Spaced r.text := by
  have number : Spaced (toString r.line) := (unbroken_toString r.line).spaced
  exact (((spaced_ofList (by decide +kernel)).append number).append
    (spaced_ofList (by decide +kernel))).append h

/-- Numbers and messages are read back from the lines they are written on, if no message has a line
break. -/
theorem readLines?_text {rs : List Report} (h : ∀ r ∈ rs, Spaced r.message) :
    linesOf (ended (rs.map text)) = rs.map text ∧
      readLines? ofText? (ended (rs.map text)) = some (rs.map fun r => (r.line, r.message)) := by
  have framed : ∀ r ∈ rs, '\n' ∉ r.text.toList := fun r hr => (spaced_text (h r hr)).framed
  exact ⟨linesOf_ended (List.forall_mem_map.mpr framed),
    readLines?_ended framed fun r _ => ofText?_text r⟩

end Report

/-- Entries of all kinds stand in a log of text in the order in which they were added. -/
theorem EntryFormat.lines_entries (es : List Entry) :
    text.lines es = ended (es.map Entry.text) := by
  rw [lines, ended, List.map_map]
  rfl

theorem EntryFormat.lines_text (rs : List Report) :
    text.lines (rs.map .rejected) = ended (rs.map Report.text) := by
  rw [lines_entries, List.map_map]
  rfl

open Text

namespace Entry

/-- What stands in the object of an entry, in this order. -/
def members : Entry → List Json.Member
  | rejected r => [("line", .number r.line), ("issue_type", .string r.issue.name),
      ("message", .string r.message)]
  | fatal message => [("message", .string message)]

def ofMembers? : List Json.Member → Option Entry
  | [("line", .number line), ("issue_type", .string issue), ("message", .string message)] =>
    (Issue.ofName? issue).map fun issue => rejected ⟨line, issue, message⟩
  | [("message", .string message)] => some (fatal message)
  | _ => none

/-- The entry on a line of a log. -/
def ofJson? (line : String) : Option Entry := do
  ofMembers? (← Json.object? line.toList)

theorem ofMembers?_members (e : Entry) : ofMembers? e.members = some e := by
  cases e with
  | rejected r => simp [members, ofMembers?, Issue.ofName?_name]
  | fatal message => rfl

theorem json_eq_objectText (e : Entry) : e.json = Json.objectText e.members := by
  cases e with
  | rejected r =>
    have first : "\x7b\"line\":" = "\x7b" ++ Quoted.encode "line" ++ ":" := by decide
    have second : ",\"issue_type\":" = "," ++ Quoted.encode "issue_type" ++ ":" := by decide
    have third : ",\"message\":" = "," ++ Quoted.encode "message" ++ ":" := by decide
    change r.json = _
    unfold Report.json
    simp only [first, second, third, members, Json.objectText, Json.memberText, Json.Value.text,
      List.map_cons, List.map_nil, String.intercalate_cons_cons, String.intercalate_singleton,
      String.append_assoc]
  | fatal message =>
    have first : "\x7b\"message\":" = "\x7b" ++ Quoted.encode "message" ++ ":" := by decide
    simp only [json, first, members, Json.objectText, Json.memberText, Json.Value.text,
      List.map_cons, List.map_nil, String.intercalate_singleton, String.append_assoc]

/-- Each entry is an object, and no other entry has that object. -/
theorem object?_json (e : Entry) : Json.object? e.json.toList = some e.members := by
  rw [json_eq_objectText]
  exact Json.object?_objectText e.members

theorem ofJson?_json (e : Entry) : ofJson? e.json = some e := by
  rw [ofJson?, object?_json]
  exact ofMembers?_members e

theorem printable_json (e : Entry) : Json.Printable e.json := by
  rw [json_eq_objectText]
  exact Json.printable_objectText e.members

/-- Entries are read back from the lines they are written on. -/
theorem readLines?_json (es : List Entry) :
    readLines? ofJson? (ended (es.map json)) = some es := by
  have framed : ∀ e ∈ es, '\n' ∉ e.json.toList := by
    intro e _ broken
    exact absurd (e.printable_json '\n' broken) (by decide)
  have read : readLines? ofJson? (ended (es.map json)) = some (es.map id) :=
    readLines?_ended framed fun e _ => e.ofJson?_json
  rw [read, List.map_id]

end Entry

theorem EntryFormat.lines_json (es : List Entry) :
    json.lines es = ended (es.map Entry.json) := by
  rw [lines, ended, List.map_map]
  rfl

end PixelScript
