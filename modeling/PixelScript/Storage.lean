import PixelScript.Fallible

namespace PixelScript

/-- The names from the root directory down. -/
abbrev Location := List String

/-- Bytes are compared by the core library, not by what another one adds to it. -/
local instance bytesDecidableEq : DecidableEq ByteArray := ByteArray.instDecidableEq

inductive Node where
  | directory
  | file (content : ByteArray)
  /-- An empty device, which takes and forgets what is written. -/
  | sink
  /-- An empty file on a disk without room for what is written. -/
  | full
  deriving DecidableEq

/-- A file system and the directory in which relative paths start. -/
structure Storage where
  cwd : Location
  nodes : List (Location × Node)

namespace Storage

def cwdPath (s : Storage) : String := "/" ++ "/".intercalate s.cwd

def node? (s : Storage) (l : Location) : Option Node :=
  if l = [] then some .directory else s.nodes.lookup l

/-- A location has one node: the one put last. -/
def put (s : Storage) (l : Location) (node : Node) : Storage :=
  { s with nodes := (l, node) :: s.nodes.filter (·.1 ≠ l) }

@[simp] theorem node?_put_self (s : Storage) {l : Location} (h : l ≠ []) (node : Node) :
    (s.put l node).node? l = some node := by
  simp [node?, put, h]

theorem lookup_filter_ne {l k : Location} (h : k ≠ l) (nodes : List (Location × Node)) :
    (nodes.filter (·.1 ≠ l)).lookup k = nodes.lookup k := by
  induction nodes with
  | nil => rfl
  | cons n ns ih =>
    obtain ⟨a, b⟩ := n
    by_cases ha : a = l
    · subst ha
      have hk : (k == a) = false := by simpa using h
      simp [List.lookup_cons, hk] at ih ⊢
      exact ih
    · simp only [ne_eq, ha, not_false_eq_true, decide_true, List.filter_cons_of_pos,
        List.lookup_cons]
      split
      · rfl
      · exact ih

theorem node?_put_of_ne (s : Storage) {l k : Location} (h : k ≠ l) (node : Node) :
    (s.put l node).node? k = s.node? k := by
  have hk : (k == l) = false := by simpa using h
  simp only [node?, put, List.lookup_cons, hk]
  rw [lookup_filter_ne h]

def segments (path : String) : List String :=
  (path.toList.splitOn '/').map String.ofList

/-- Follows names from a directory. An empty name, as after a slash at the end, stays there but
needs the directory; the last name may be missing. -/
def walk (s : Storage) (l : Location) : List String → Except IoError Location
  | [] => .ok l
  | name :: names =>
    match s.node? l with
    | none => .error .notFound
    | some .directory =>
      if name = "" ∨ name = "." then walk s l names
      else if name = ".." then walk s l.dropLast names
      else if 255 < name.utf8ByteSize then .error .nameTooLong
      else walk s (l ++ [name]) names
    | some _ => .error .notADirectory

/-- What no directory is asked about: names that are empty, too long or hold NUL. -/
def refused (path : String) : Option IoError :=
  if '\x00' ∈ path.toList then some .nulInName
  else if path = "" then some .notFound
  else if 4096 ≤ path.utf8ByteSize then some .nameTooLong
  else none

def origin (s : Storage) (path : String) : Location :=
  if path.toList.head? = some '/' then [] else s.cwd

def find (s : Storage) (path : String) : Except IoError (Location × Node) := do
  if let some e := refused path then .error e
  let l ← s.walk (s.origin path) (segments path)
  match s.node? l with
  | some node => .ok (l, node)
  | none => .error .notFound

def contains (s : Storage) (path : String) : Bool :=
  (s.find path).toOption.isSome

def read (s : Storage) (path : String) : Except IoError ByteArray := do
  match ← s.find path with
  | (_, .directory) => .error .isADirectory
  | (_, .file content) => .ok content
  | (_, .sink) | (_, .full) => .ok .empty

def readText (s : Storage) (path : String) : Except IoError String := do
  match String.fromUTF8? (← s.read path) with
  | some text => .ok text
  | none => .error .notUtf8

/-- Opens a file to be written from the start. A missing one is made in its directory; a path
that ends in a slash, or in a name for a directory, opens none. -/
def create (s : Storage) (path : String) : Except IoError (Storage × Location) := do
  if let some e := refused path then .error e
  let names := segments path
  let trimmed := (names.reverse.dropWhile (· = "")).reverse
  let some name := trimmed.getLast? | .error .isADirectory
  let parent ← s.walk (s.origin path) (trimmed.dropLast ++ [""])
  if trimmed ≠ names ∨ name = "." ∨ name = ".." then .error .isADirectory
  let l ← s.walk parent [name]
  match s.node? l with
  | some .directory => .error .isADirectory
  | some .sink | some .full => .ok (s, l)
  | some (.file _) | none => .ok (s.put l (.file .empty), l)

def append (s : Storage) (l : Location) (data : ByteArray) : Except IoError Storage :=
  match s.node? l with
  | none => .error .notFound
  | some .directory => .error .isADirectory
  | some (.file content) => .ok (s.put l (.file (content ++ data)))
  | some .sink => .ok s
  | some .full => .error .noSpace

end Storage

end PixelScript
