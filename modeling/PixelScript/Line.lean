import PixelScript.Command
import PixelScript.Coordinate
import PixelScript.Text.Blank
import PixelScript.Text.Quoted

namespace PixelScript

/-- One line of a script, cut into words. A blank line has the empty key. -/
structure Line where
  number : Nat
  key : String
  args : List String
  deriving DecidableEq

namespace Line

/-- One carriage return at the end belongs to the line break. -/
def dropReturn (cs : List Char) : List Char :=
  if cs.getLast? = some '\r' then cs.dropLast else cs

def ofText (number : Nat) (text : String) : Line :=
  match (Text.words (dropReturn text.toList)).map String.ofList with
  | [] => ⟨number, "", []⟩
  | key :: args => ⟨number, key, args⟩

/-- The carriage return is a blank, so no word misses it. -/
theorem words_dropReturn (cs : List Char) : Text.words (dropReturn cs) = Text.words cs := by
  unfold dropReturn
  split
  · next h =>
    obtain ⟨ds, hd⟩ := List.getLast?_eq_some_iff.mp h
    rw [hd, List.dropLast_concat, Text.words_append_blank ds [] (by decide)]
    simp [Text.words]
  · rfl

theorem ofText_of_words {key : List Char} {args : List (List Char)} {cs : List Char}
    (h : Text.words cs = key :: args) (number : Nat) :
    ofText number (String.ofList cs) = ⟨number, String.ofList key, args.map String.ofList⟩ := by
  unfold ofText
  rw [String.toList_ofList, words_dropReturn, h]
  rfl

end Line

/-- Why a line is rejected. -/
inductive Fault where
  | unsupported (key : String)
  | arity (verb : Verb)
  | notNumeric (verb : Verb)
  | outOfRange
  | invalidColor (verb : Verb)
  deriving DecidableEq

/-- The class of a fault, as logs name it. -/
inductive Issue where
  | unsupported
  | arity
  | notNumeric
  | outOfRange
  | invalidColor
  deriving DecidableEq

namespace Issue

def all : List Issue := [unsupported, arity, notNumeric, outOfRange, invalidColor]

def name : Issue → String
  | unsupported => "unsupported"
  | arity => "arity"
  | notNumeric => "not_numeric"
  | outOfRange => "out_of_range"
  | invalidColor => "invalid_color"

def ofName? (name : String) : Option Issue :=
  all.find? (·.name = name)

theorem ofName?_name (i : Issue) : ofName? i.name = some i := by cases i <;> decide

end Issue

namespace Fault

def issue : Fault → Issue
  | unsupported _ => .unsupported
  | arity _ => .arity
  | notNumeric _ => .notNumeric
  | outOfRange => .outOfRange
  | invalidColor _ => .invalidColor

def message : Fault → String
  | unsupported key =>
    if key = "" then "Unsupported command (empty line)" else s!"Unsupported command key {key}"
  | arity verb =>
    if verb.arity = 0 then s!"Command key {verb.key} does not require any parameters"
    else s!"Command key {verb.key} requires {verb.arity} parameters"
  | notNumeric .create => "Command key I requires all parameters to be numeric"
  | notNumeric verb => s!"Command key {verb.key} requires all coordinate parameters to be numeric"
  | outOfRange => "Pixels value out of valid range"
  | invalidColor verb =>
    let place := if verb.arity = 3 then "Third" else "Fourth"
    s!"{place} parameter with Command key {verb.key} should not be numeric"

end Fault

namespace Line

def color (verb : Verb) (token : String) : Except Fault Color :=
  (Color.parse token).mapError fun _ => .invalidColor verb

/-- A token that is no number counts before one that is out of range. -/
def coordinateFault (verb : Verb) (readings : List Coordinate.Reading) : Fault :=
  if .notNumeric ∈ readings then .notNumeric verb else .outOfRange

open Coordinate in
/-- The command that a line asks for. The key is looked at first, then the number of arguments,
the color and at last the coordinates. -/
def command (line : Line) : Except Fault Command := do
  let some verb := Verb.ofKey? line.key | .error (.unsupported line.key)
  match verb, line.args with
  | .create, [height, width] =>
    match read height, read width with
    | .value height, .value width => .ok (.create height width)
    | r, s => .error (coordinateFault verb [r, s])
  | .clear, [] => .ok .clear
  | .dot, [x, y, c] =>
    let c ← color verb c
    match read x, read y with
    | .value x, .value y => .ok (.dot x y c)
    | r, s => .error (coordinateFault verb [r, s])
  | .vertical, [x, y1, y2, c] =>
    let c ← color verb c
    match read x, read y1, read y2 with
    | .value x, .value y1, .value y2 => .ok (.vertical x y1 y2 c)
    | r, s, t => .error (coordinateFault verb [r, s, t])
  | .horizontal, [y, x1, x2, c] =>
    let c ← color verb c
    match read y, read x1, read x2 with
    | .value y, .value x1, .value x2 => .ok (.horizontal y x1 x2 c)
    | r, s, t => .error (coordinateFault verb [r, s, t])
  | .print, [] => .ok .print
  | _, _ => .error (.arity verb)

end Line

/-- A rejected line, as logs and listings show it. -/
structure Report where
  line : Nat
  issue : Issue
  message : String
  deriving DecidableEq

namespace Report

def ofFault (line : Nat) (fault : Fault) : Report :=
  ⟨line, fault.issue, fault.message⟩

def text (r : Report) : String :=
  s!"Line {r.line} : {r.message}"

def json (r : Report) : String :=
  "\x7b\"line\":" ++ toString r.line ++ ",\"issue_type\":" ++ Text.Quoted.encode r.issue.name ++
    ",\"message\":" ++ Text.Quoted.encode r.message ++ "\x7d"

end Report

/-- The command of a line, or the report of why it is rejected. -/
def Line.check (line : Line) : Except Report Command :=
  line.command.mapError (Report.ofFault line.number)

def Line.report? (line : Line) : Option Report :=
  match line.check with
  | .ok _ => none
  | .error report => some report

/-- The reports of the lines that are rejected. -/
def Line.reports (lines : List Line) : List Report := lines.filterMap Line.report?

/-- The commands of the lines that are accepted. -/
def Line.commands (lines : List Line) : List Command :=
  lines.filterMap fun line => line.check.toOption

section Check

variable {line : Line} {k : Command} {r : Report}

theorem Line.commands_cons_of_ok (h : line.check = .ok k) (lines : List Line) :
    commands (line :: lines) = k :: commands lines := by
  simp [commands, h, Except.toOption]

theorem Line.commands_cons_of_error (h : line.check = .error r) (lines : List Line) :
    commands (line :: lines) = commands lines := by
  simp [commands, h, Except.toOption]

theorem Line.reports_cons_of_ok (h : line.check = .ok k) (lines : List Line) :
    reports (line :: lines) = reports lines := by
  simp [reports, report?, h]

theorem Line.reports_cons_of_error (h : line.check = .error r) (lines : List Line) :
    reports (line :: lines) = r :: reports lines := by
  simp [reports, report?, h]

end Check

theorem Line.reports_cons (line : Line) (lines : List Line) :
    reports (line :: lines) = line.report?.toList ++ reports lines := by
  unfold reports
  cases h : line.report? with
  | none => simp [h]
  | some report => simp [h]

theorem Line.check_of_command {line : Line} {k : Command} (h : line.command = .ok k) :
    line.check = .ok k := by
  rw [check, h]
  rfl

end PixelScript
