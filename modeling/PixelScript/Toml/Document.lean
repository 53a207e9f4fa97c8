import PixelScript.Toml.Token

namespace PixelScript.Toml

/-- A table while a document is read. An `implicit` one was only passed through on the way to
another; a `dotted` one was passed through by a dotted key. -/
structure Table (α : Type) where
  implicit : Bool
  dotted : Bool
  entries : List (String × α)

/-- What a key stands for. An inline table is complete: no later line can add to it. -/
inductive Item where
  | string (text : String)
  | boolean (value : Bool)
  | integer (value : Int)
  | float
  | dateTime
  | array (items : List Item)
  | inline (table : Table Item)
  | table (table : Table Item)
  | tables (elements : List (Table Item))

namespace Table

def empty {α : Type} : Table α := ⟨false, false, []⟩

def get? {α : Type} (t : Table α) (key : String) : Option α := t.entries.lookup key

/-- A key keeps its place when it takes a new item. -/
def set {α : Type} (t : Table α) (key : String) (a : α) : Table α :=
  if (t.get? key).isSome then
    { t with entries := t.entries.map fun e => if e.1 = key then (key, a) else e }
  else { t with entries := t.entries ++ [(key, a)] }

/-- Applies `f` to the table at the end of a path and makes the tables that are missing on the
way. A dotted key passes through implicit tables only; an array of tables stands for its last. -/
def modify (dotted : Bool) (f : Table Item → Option (Table Item)) :
    List String → Table Item → Option (Table Item)
  | [], t => f t
  | key :: path, t =>
    match t.get? key with
    | none => (modify dotted f path ⟨true, dotted, []⟩).map fun c => t.set key (.table c)
    | some (.table c) =>
      if dotted && !c.implicit then none
      else (modify dotted f path c).map fun c => t.set key (.table c)
    | some (.tables cs) => do
      let c ← modify dotted f path (← cs.getLast?)
      some (t.set key (.tables (cs.dropLast ++ [c])))
    | some _ => none

/-- Gives a key its item, once. A dotted key adds only to tables that dotted keys made, and a
plain key to none of those. -/
def define (path : List String) (key : String) (item : Item) : Table Item → Option (Table Item) :=
  modify true (fun t =>
    if t.dotted = path.isEmpty || (t.get? key).isSome then none else some (t.set key item)) path

/-- Opens the table of a header: a new one, or one that was implicit up to here. -/
def openTable (path : List String) (key : String) : Table Item → Option (Table Item) :=
  modify false (fun t =>
    match t.get? key with
    | none => some (t.set key (.table empty))
    | some (.table c) =>
      if c.implicit && !c.dotted then some (t.set key (.table { c with implicit := false }))
      else none
    | some _ => none) path

/-- Starts the next element of an array of tables. -/
def openElement (path : List String) (key : String) : Table Item → Option (Table Item) :=
  modify false (fun t =>
    match t.get? key with
    | none => some (t.set key (.tables [empty]))
    | some (.tables cs) => some (t.set key (.tables (cs ++ [empty])))
    | some _ => none) path

end Table

open Reader

def inlineTable (pairs : List (List String × Item)) : Option (Table Item) :=
  pairs.foldlM (fun t (path, item) => do
    t.define path.dropLast (← path.getLast?) item) Table.empty

def pair (value : Reader Item) : Reader (List String × Item) := do
  let path ← key
  char '='
  spaces
  return (path, ← value)

def array (item : Reader Item) : Reader Item := do
  char '['
  let items ← sepBy (filler *> item <* filler) (char ',')
  if !items.isEmpty then discard (option (char ','))
  filler
  char ']'
  return .array items

def inline (item : Reader Item) : Reader Item := do
  char '{'
  let pairs ← sepBy (pair item <* spaces) (char ',')
  spaces
  char '}'
  let some t := inlineTable pairs | failure
  return .inline t

def simple : Reader Item :=
  Item.string <$> string <|>
  exactly "true" *> pure (.boolean true) <|>
  exactly "false" *> pure (.boolean false) <|>
  dateTime *> pure .dateTime <|>
  float *> pure .float <|>
  Item.integer <$> integer

/-- A value with at most `depth` arrays and inline tables around each other. -/
def value : Nat → Reader Item
  | 0 => simple
  | depth + 1 => array (value depth) <|> inline (value depth) <|> simple

inductive Statement where
  | blank
  | entry (path : List String) (item : Item)
  | header (path : List String)
  | element (path : List String)

def statement : Reader Statement :=
  (comment *> (newline <|> atEnd) <|> newline) *> pure .blank <|>
  .element <$> (exactly "[[" *> key <* exactly "]]" <* lineEnd) <|>
  .header <$> (char '[' *> key <* char ']' <* lineEnd) <|> do
    let (path, item) ← pair (value 79)
    lineEnd
    return .entry path item

/-- A document up to some line: its tables, and the path of the one that entries go to. -/
structure Draft where
  root : Table Item
  current : List String

def Draft.add (d : Draft) : Statement → Option Draft
  | .blank => some d
  | .entry path item => do
    let key ← path.getLast?
    some { d with root := ← d.root.modify false (·.define path.dropLast key item) d.current }
  | .header path => do
    some ⟨← d.root.openTable path.dropLast (← path.getLast?), path⟩
  | .element path => do
    some ⟨← d.root.openElement path.dropLast (← path.getLast?), path⟩

def statements : Reader (List Statement) := do
  let _ ← option (char '\ufeff')
  spaces
  let ss ← many (statement <* spaces)
  atEnd
  return ss

/-- What reads a text as a document, if it is one, and gives its root table. -/
abbrev Parser := String → Option (Table Item)

/-- A byte order mark at the start is passed over. -/
def parse : Parser := fun text => do
  let (ss, _) ← statements text.toList
  let d ← ss.foldlM Draft.add ⟨.empty, []⟩
  some d.root

end PixelScript.Toml
