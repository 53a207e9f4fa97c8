import PixelScript.Log.File
import PixelScript.Path
import PixelScript.Toml.Document

namespace PixelScript

/-- How a run keeps its log. -/
structure Settings where
  path : String
  format : EntryFormat
  echo : Bool
  deriving DecidableEq

/-- What the command line has to say on settings. -/
structure Overrides where
  path : Option String
  format : Option EntryFormat
  echo : Option Bool
  deriving DecidableEq

/-- A setting that cannot be used. -/
structure Problem where
  setting : String
  message : String
  deriving DecidableEq

inductive SettingsError where
  | io (cause : IoError)
  | malformed
  | invalid (problems : List Problem)
  deriving DecidableEq

def Problem.text (p : Problem) : String := s!"bitmap.toml: '{p.setting}' {p.message}"

/-- A malformed file is not described any closer. -/
def SettingsError.message : SettingsError → String
  | io cause => s!"Failed to read config: {cause.message}"
  | malformed => "Failed to parse bitmap.toml: "
  | invalid problems =>
    "Config validation failed:\n" ++ "\n".intercalate (problems.map fun p => s!"  - {p.text}")

namespace Settings

def default : Settings := ⟨"error_log.txt", .text, false⟩

def override (s : Settings) (o : Overrides) : Settings :=
  ⟨o.path.getD s.path, o.format.getD s.format, o.echo.getD s.echo⟩

def problems (s : Settings) : List Problem :=
  if s.path = "" then [⟨"log.path", "must be a non-empty path"⟩] else []

open Toml

def stringOf : Item → Option String
  | .string text => some text
  | _ => none

def booleanOf : Item → Option Bool
  | .boolean value => some value
  | _ => none

/-- A format is named by a string, or by the only key of a table, with nothing in it. -/
def formatOf : Item → Option EntryFormat
  | .string text => EntryFormat.ofName? text
  | .inline t | .table t =>
    match t.entries with
    | [(name, .inline ⟨_, _, []⟩)] | [(name, .table ⟨_, _, []⟩)] | [(name, .array [])] =>
      EntryFormat.ofName? name
    | _ => none
  | _ => none

/-- A setting that is not given has its default; one that is given has to be understood. -/
def field {α : Type} (given : Option Item) (read : Item → Option α) (byDefault : α) : Option α :=
  match given with
  | none => some byDefault
  | some item => read item

def ofFields (path format echo : Option Item) : Option Settings := do
  some ⟨← field path stringOf default.path, ← field format formatOf default.format,
    ← field echo booleanOf default.echo⟩

/-- The settings stand in a table by name, or in an array by position. A date has none of them. -/
def ofItem : Item → Option Settings
  | .table t | .inline t => ofFields (t.get? "path") (t.get? "format") (t.get? "echo")
  | .array items => ofFields items[0]? items[1]? items[2]?
  | .dateTime => some default
  | _ => none

/-- A document has no key but `log`. -/
def ofTable (root : Table Item) : Option Settings :=
  if root.entries.all (·.1 = "log") then
    match root.get? "log" with
    | none => some default
    | some item => ofItem item
  else none

def parse (toml : Parser) (text : String) : Option Settings := (toml text).bind ofTable

def readFile (toml : Parser) (files : Storage) (path : String) :
    Except SettingsError Settings := do
  let text ← (files.readText path).mapError .io
  let some s := parse toml text | .error .malformed
  match s.problems with
  | [] => .ok s
  | problems => .error (.invalid problems)

def fileName : String := "bitmap.toml"

/-- The settings file in `start` or, if it has none, in the nearest directory above. -/
def nearest (holds : String → Bool) (start : String) : Option String :=
  let here := Path.join start fileName
  if holds here then some here
  else
    match _h : Path.parent? start with
    | none => none
    | some above => nearest holds above
termination_by start.length
decreasing_by exact Path.length_parent? _h

/-- Settings are read from the file that is asked for, else from the nearest one, else they are
the defaults. -/
def load (toml : Parser) (files : Storage) (asked : Option String) :
    Except SettingsError Settings :=
  match asked <|> nearest files.contains files.cwdPath with
  | some path => readFile toml files path
  | none => .ok default

end Settings

end PixelScript
