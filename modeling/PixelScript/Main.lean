import PixelScript.Program

namespace PixelScript.Disk

def placeOf (l : Location) : String := "/" ++ "/".intercalate l

/-- What is at a place, if anything. A pipe or a device is a file, which holds what there is to
read in it if it is to be read. -/
def nodeAt (place : String) (reads : Bool) : IO (Option Node) := do
  try
    let p := (← IO.FS.realPath "/") / place
    match (← p.metadata).type with
    | .dir => return some .directory
    | .file => return some (.file (← IO.FS.readBinFile p))
    | _ =>
      if reads then return some (.file (← IO.FS.readBinFile p))
      match place with
      | "/dev/full" => return some .full
      | "/dev/null" => return some .sink
      | _ => return some (.file .empty)
  catch _ => return none

/-- Adds the places that names lead to, one below the other, each of them once. -/
def visit (reads : Bool) (s : Storage) (l : Location) : List String → IO Storage
  | [] => return s
  | name :: names => do
    if name = "" ∨ name = "." then visit reads s l names
    else if name = ".." then visit reads s l.dropLast names
    else
      let l := l ++ [name]
      if (s.node? l).isSome then visit reads s l names
      else
        match ← nodeAt (placeOf l) (reads && names.isEmpty) with
        | some node => visit reads (s.put l node) l names
        | none => return s

def visitPath (reads : Bool) (s : Storage) (path : String) : IO Storage :=
  visit reads s (Storage.origin s path) (Storage.segments path)

/-- The files that a request may touch; its log is known when its settings are. -/
def filesFor (s : Storage) : Request → IO Storage
  | .check input _ => visitPath true s input
  | .run input overrides asked => do
    let candidates := (List.range (s.cwd.length + 1)).map fun k =>
      placeOf (s.cwd.take k ++ [Settings.fileName])
    let s ← (candidates ++ asked.toList ++ [input]).foldlM (visitPath true) s
    match Settings.load Toml.parse s asked with
    | .ok settings => visitPath false s (settings.override overrides).path
    | .error _ => return s

/-- Writes the files that a run has changed. -/
def store (before after : Storage) : IO Unit :=
  after.nodes.forM fun (l, node) =>
    match node with
    | .file content =>
      if before.node? l = some node then return else IO.FS.writeBinFile (placeOf l) content
    | _ => return

def errorOf : IO.Error → IoError
  | .resourceExhausted .. => .noSpace
  | e => .other (toString e)

/-- Prints line by line. What comes out of it is an output with the room that there was. -/
def print (bytes : List UInt8) : IO Output := do
  let stdout ← IO.getStdout
  let mut taken := 0
  for line in (bytes.splitOn 10).intersperse [10] do
    try
      stdout.write line.toByteArray
      stdout.flush
    catch e => return ⟨.empty, some taken, errorOf e, none⟩
    taken := taken + line.length
  return .unlimited

/-- A program is first run for an output that takes everything, and again if the real one does
not. -/
def run (args : List String) : IO UInt32 := do
  let cwd := (Storage.segments (← IO.currentDir).toString).filter (· ≠ "")
  let start ← visitPath false ⟨[], []⟩ (placeOf cwd)
  let start := { start with cwd }
  let files ← match Parsers.own.arguments args with
    | .ok request => filesFor start request
    | .error _ => pure start
  let done := Program.main .own files .unlimited args
  let output ← print done.output.bytes.data.toList
  let done := if output.room.isNone then done else Program.main .own files output args
  store files done.files
  try
    for notice in done.notices do IO.eprintln notice
  catch _ => return 101
  match done.exit with
  | .code n => return n.toUInt32
  | .panicked => return 101

end PixelScript.Disk

def main (args : List String) : IO UInt32 := PixelScript.Disk.run args
