import PixelScript.Settings

namespace PixelScript

/-- What the arguments ask the program to do. -/
inductive Request where
  | run (input : String) (overrides : Overrides) (settings : Option String)
  | check (input : String) (json : Bool)

namespace CommandLine

/-- Why arguments make no request: they ask for help or the version, or cannot be understood. -/
inductive Stop where
  | help
  | version
  | misuse
  deriving DecidableEq

/-- An option takes a value that `accepts` holds of; without `accepts` it is a flag. -/
structure Switch where
  long : String
  short : Option Char
  accepts : Option (String → Bool)

/-- The arguments up to some point: switches with their values, and the file to work on. -/
structure Given where
  switches : List (String × String)
  input : Option String

def Given.value? (g : Given) (long : String) : Option String := g.switches.lookup long

def Given.has (g : Given) (long : String) : Bool := (g.value? long).isSome

/-- No switch is given twice. -/
def Given.add (g : Given) (s : Switch) (value : String) : Except Stop Given :=
  if g.has s.long || !(s.accepts.elim true (· value)) then .error .misuse
  else .ok { g with switches := (s.long, value) :: g.switches }

/-- One file is named, and not by the empty text. -/
def Given.addInput (g : Given) (input : String) : Except Stop Given :=
  if g.input.isSome || input = "" then .error .misuse else .ok { g with input := some input }

/-- How an argument is read, unless it follows an option that waits for its value. -/
inductive Argument where
  | input (path : String)
  | long (name : String) (attached : Option String)
  | short (letter : Char) (attached : List Char)
  | endOfSwitches

/-- A single dash is a file, and what follows `=` belongs to the long name before. -/
def Argument.ofText (arg : String) : Argument :=
  match arg.toList with
  | ['-', '-'] => .endOfSwitches
  | '-' :: '-' :: cs =>
    .long (String.ofList (cs.takeWhile (· ≠ '='))) (match cs.dropWhile (· ≠ '=') with
      | [] => none
      | _ :: value => some (String.ofList value))
  | '-' :: c :: cs => .short c cs
  | _ => .input arg

/-- An option in front of a switch has no value. -/
def isValue (arg : String) : Bool :=
  match Argument.ofText arg with
  | .input _ => true
  | _ => false

def afterLetter : List Char → String
  | '=' :: cs => String.ofList cs
  | cs => String.ofList cs

/-- Reads arguments from left to right, up to the first that settles what happens. An option that
still waits for its value comes first. -/
def scan (switches : List Switch) : Option Switch → Given → List String → Except Stop Given
  | none, g, [] => .ok g
  | some _, _, [] => .error .misuse
  | some s, g, arg :: args =>
    if isValue arg then do scan switches none (← g.add s arg) args else .error .misuse
  | none, g, arg :: args =>
    match Argument.ofText arg with
    | .input path => do scan switches none (← g.addInput path) args
    | .endOfSwitches => args.foldlM Given.addInput g
    | .long "help" none => .error .help
    | .short 'h' _ => .error .help
    | .long name attached =>
      match switches.find? (·.long = name) with
      | none => .error .misuse
      | some s =>
        match s.accepts, attached with
        | none, none => do scan switches none (← g.add s "") args
        | none, some _ => .error .misuse
        | some _, some value => do scan switches none (← g.add s value) args
        | some _, none => scan switches (some s) g args
    | .short letter attached =>
      match switches.find? (·.short = some letter), attached with
      | none, _ => .error .misuse
      | some s, [] => scan switches (some s) g args
      | some s, _ :: _ => do scan switches none (← g.add s (afterLetter attached)) args

def isPath (value : String) : Bool := value ≠ ""

def isFormat (value : String) : Bool := (EntryFormat.ofName? value).isSome

def runSwitches : List Switch :=
  [⟨"log", some 'l', some isPath⟩, ⟨"log-format", none, some isFormat⟩, ⟨"echo", none, none⟩,
    ⟨"config", none, some isPath⟩]

def checkSwitches : List Switch := [⟨"json", none, none⟩]

def parseRun (args : List String) : Except Stop Request := do
  let g ← scan runSwitches none ⟨[], none⟩ args
  let some input := g.input | .error .misuse
  let format := (g.value? "log-format").bind EntryFormat.ofName?
  let echo := if g.has "echo" then some true else none
  .ok (.run input ⟨g.value? "log", format, echo⟩ (g.value? "config"))

def parseCheck (args : List String) : Except Stop Request := do
  let g ← scan checkSwitches none ⟨[], none⟩ args
  let some input := g.input | .error .misuse
  .ok (.check input (g.has "json"))

/-- The first argument names what to do. -/
def parse : List String → Except Stop Request
  | [] => .error .misuse
  | "run" :: args => parseRun args
  | "check" :: args => parseCheck args
  | ["help"] | ["help", "run"] | ["help", "check"] | ["help", "help"] => .error .help
  | arg :: _ =>
    match Argument.ofText arg with
    | .long "help" none | .short 'h' _ => .error .help
    | .long "version" none | .short 'V' _ => .error .version
    | _ => .error .misuse

end CommandLine

/-- What a program reads its arguments and the text of its settings with. -/
structure Parsers where
  arguments : List String → Except CommandLine.Stop Request
  toml : Toml.Parser

def Parsers.own : Parsers := ⟨CommandLine.parse, Toml.parse⟩

end PixelScript
