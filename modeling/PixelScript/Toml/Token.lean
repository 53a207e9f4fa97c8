import PixelScript.Text.Quoted

namespace PixelScript.Toml

/-- Takes a value from the start of a text and leaves the rest. -/
abbrev Reader := StateT (List Char) Option

namespace Reader

/-- One character that satisfies `p`. -/
def satisfy (p : Char → Bool) : Reader Char
  | c :: cs => if p c then some (c, cs) else none
  | [] => none

def char (c : Char) : Reader Unit := discard (satisfy (· = c))

def span (p : Char → Bool) : Reader (List Char) := fun cs => some (cs.takeWhile p, cs.dropWhile p)

def span1 (p : Char → Bool) : Reader (List Char) := do
  let cs ← span p
  if cs.isEmpty then failure else return cs

/-- The characters of `text`. -/
def exactly (text : String) : Reader Unit := fun cs =>
  if text.toList.isPrefixOf cs then some ((), cs.drop text.length) else none

/-- Exactly `n` characters that satisfy `p`. -/
def count (n : Nat) (p : Char → Bool) : Reader (List Char) := fun cs =>
  let ds := cs.take n
  if ds.length = n && ds.all p then some (ds, cs.drop n) else none

def option {α : Type} (r : Reader α) : Reader (Option α) := fun cs =>
  match r cs with
  | some (a, rest) => some (some a, rest)
  | none => some (none, cs)

def atEnd : Reader Unit
  | [] => some ((), [])
  | _ :: _ => none

/-- As many as there are. It ends where a step takes nothing. -/
def many {α : Type} (r : Reader α) (cs : List Char) : Option (List α × List Char) :=
  match r cs with
  | none => some ([], cs)
  | some (a, rest) =>
    if _h : rest.length < cs.length then (many r rest).map fun (as, rest) => (a :: as, rest)
    else some ([a], rest)
termination_by cs.length

/-- At least one, with a separator between two. -/
def sepBy1 {α β : Type} (r : Reader α) (separator : Reader β) : Reader (List α) := do
  let a ← r
  return a :: (← many (separator *> r))

def sepBy {α β : Type} (r : Reader α) (separator : Reader β) : Reader (List α) :=
  sepBy1 r separator <|> pure []

end Reader

open Reader

def isSpace (c : Char) : Bool := c = ' ' || c = '\t'

/-- What a comment may hold: no control character but the tab. -/
def isPlain (c : Char) : Bool := c = '\t' || 0x20 ≤ c.toNat && c.toNat ≠ 0x7F

def spaces : Reader Unit := discard (span isSpace)

def newline : Reader Unit := char '\n' <|> exactly "\r\n"

def comment : Reader Unit := char '#' *> discard (span isPlain)

/-- What may follow on a line after its statement. -/
def lineEnd : Reader Unit := spaces *> discard (option comment) *> (newline <|> atEnd)

/-- Blanks, line breaks and comments between the items of an array. -/
def filler : Reader Unit := discard (many (discard (satisfy isSpace) <|> newline <|> comment))

/-- The character that hexadecimal digits name, unless it is a surrogate or beyond the last. -/
def scalar (digits : List Char) : Option Char := do
  let n ← Text.Hex.number? digits
  if h : n.isValidChar then some (Char.ofNatAux n h) else none

/-- The character after a backslash, and the rest. -/
def unescape : List Char → Option (Char × List Char)
  | 'b' :: cs => some ('\x08', cs)
  | 't' :: cs => some ('\t', cs)
  | 'n' :: cs => some ('\n', cs)
  | 'f' :: cs => some ('\x0c', cs)
  | 'r' :: cs => some ('\r', cs)
  | '"' :: cs => some ('"', cs)
  | '\\' :: cs => some ('\\', cs)
  | 'u' :: cs => do
    let (ds, cs) ← count 4 Text.Hex.isDigit cs
    some (← scalar ds, cs)
  | 'U' :: cs => do
    let (ds, cs) ← count 8 Text.Hex.isDigit cs
    some (← scalar ds, cs)
  | _ => none

/-- One character of a string in double quotes. -/
def basicChar : Reader Char
  | '\\' :: cs => unescape cs
  | c :: cs => if c = '"' || !isPlain c then none else some (c, cs)
  | [] => none

def basicString : Reader String := do
  char '"'
  let cs ← many basicChar
  char '"'
  return String.ofList cs

def literalString : Reader String := do
  char '\x27'
  let cs ← span fun c => c ≠ '\x27' && isPlain c
  char '\x27'
  return String.ofList cs

/-- A quote before fewer than two more. -/
def innerQuote (quote : Char) : Reader Char
  | c :: cs => if c = quote && cs.take 2 ≠ [quote, quote] then some (c, cs) else none
  | [] => none

/-- A piece of a string of several lines. -/
def multilineChar (quote : Char) (single : Reader Char) : Reader (List Char) :=
  newline *> pure ['\n'] <|> (List.singleton <$> (innerQuote quote <|> single))

/-- A backslash at the end of a line takes the line break with it, and all blanks after. -/
def foldedBreak : Reader (List Char) := do
  char '\\'
  spaces
  newline
  let _ ← many (discard (satisfy isSpace) <|> newline)
  return []

/-- Three quotes end the string; of up to five, the first two belong to it. -/
def multiline (quote : Char) (piece : Reader (List Char)) : Reader String := do
  let fence := String.ofList [quote, quote, quote]
  exactly fence
  let _ ← option newline
  let pieces ← many piece
  let extra ← span (· = quote)
  if 3 ≤ extra.length && extra.length ≤ 5 then
    return String.ofList (pieces.flatten ++ extra.drop 3)
  else failure

def multilineBasic : Reader String :=
  multiline '"' (foldedBreak <|> multilineChar '"' basicChar)

def multilineLiteral : Reader String :=
  multiline '\x27' (multilineChar '\x27' (satisfy fun c => c ≠ '\x27' && isPlain c))

def string : Reader String :=
  multilineBasic <|> basicString <|> multilineLiteral <|> literalString

def isBare (c : Char) : Bool := c.isAlphanum || c = '_' || c = '-'

def simpleKey : Reader String :=
  basicString <|> literalString <|> (String.ofList <$> span1 isBare)

/-- Names with dots between, fewer than 80. -/
def key : Reader (List String) := do
  let names ← sepBy1 (spaces *> simpleKey <* spaces) (char '.')
  if names.length < 80 then return names else failure

/-- Digits from the first on; one underscore may stand between two. -/
def grouped (p : Char → Bool) : List Char → List Char × List Char
  | [] => ([], [])
  | c :: cs =>
    if p c then
      let (ds, rest) := grouped p cs
      (c :: ds, rest)
    else if c = '_' && (cs.head?.any p) then grouped p cs
    else ([], c :: cs)

def digits1 (p : Char → Bool) : Reader (List Char) := fun cs =>
  if cs.head?.any p then some (grouped p cs) else none

def valueOf (base : Nat) (digits : List Char) : Nat :=
  digits.foldl (fun n d => base * n + (Text.Hex.value? d).getD 0) 0

/-- Whether there is a minus. -/
def sign : Reader Bool := char '-' *> pure true <|> char '+' *> pure false <|> pure false

/-- No zero stands before other digits. -/
def decimal : Reader (List Char) :=
  char '0' *> pure ['0'] <|> digits1 Char.isDigit

def bounded (negative : Bool) (n : Nat) : Reader Int :=
  if negative then if n ≤ 0x8000000000000000 then pure (-n : Int) else failure
  else if n ≤ 0x7FFFFFFFFFFFFFFF then pure (n : Int) else failure

def radix (lead : String) (base : Nat) (p : Char → Bool) : Reader Int := do
  exactly lead
  bounded false (valueOf base (← digits1 p))

def integer : Reader Int :=
  radix "0x" 16 Text.Hex.isDigit <|>
  radix "0o" 8 (fun c => '0' ≤ c && c ≤ '7') <|>
  radix "0b" 2 (fun c => c = '0' || c = '1') <|> do
    let negative ← sign
    bounded negative (valueOf 10 (← decimal))

def exponent : Reader Int := do
  let _ ← char 'e' <|> char 'E'
  let negative ← sign
  let n := valueOf 10 (← digits1 Char.isDigit)
  return if negative then -n else n

/-- The least number that no finite double is nearest to. -/
def overflow : Nat := Nat.pow 2 1024 - Nat.pow 2 970

/-- Whether `n * 10 ^ e` is beyond all doubles. Powers are computed only if the count of digits
does not settle it. -/
def overflows (n : Nat) (e : Int) : Bool :=
  let length : Int := (Nat.toDigits 10 n).length
  if n = 0 || length + e ≤ 308 then false
  else if 310 < length + e then true
  else overflow * Nat.pow 10 (-e).toNat ≤ n * Nat.pow 10 e.toNat

/-- Only a positive number may not be too large. -/
def float : Reader Unit :=
  (do
    let negative ← sign
    let whole ← decimal
    let fraction ← option (char '.' *> digits1 Char.isDigit)
    let power ← option exponent
    if fraction.isNone && power.isNone then failure
    let places := fraction.getD []
    let n := valueOf 10 (whole ++ places)
    if !negative && overflows n (power.getD 0 - places.length) then failure else return) <|>
  sign *> (exactly "inf" <|> exactly "nan")

def twoDigits (least greatest : Nat) : Reader Nat := do
  let n := valueOf 10 (← count 2 Char.isDigit)
  if least ≤ n && n ≤ greatest then return n else failure

def daysIn (year month : Nat) : Nat :=
  if month = 2 then if year % 4 = 0 && (year % 100 ≠ 0 || year % 400 = 0) then 29 else 28
  else if month = 4 || month = 6 || month = 9 || month = 11 then 30
  else 31

def date : Reader Unit := do
  let year := valueOf 10 (← count 4 Char.isDigit)
  char '-'
  let month ← twoDigits 1 12
  char '-'
  discard (twoDigits 1 (daysIn year month))

def hourMinute : Reader Unit := twoDigits 0 23 *> char ':' *> discard (twoDigits 0 59)

/-- The second may be a leap second. -/
def time : Reader Unit := do
  hourMinute
  char ':'
  discard (twoDigits 0 60)
  discard (option (char '.' *> span1 Char.isDigit))

def offset : Reader Unit :=
  char 'Z' <|> char 'z' <|> (char '+' <|> char '-') *> hourMinute

def dateTime : Reader Unit :=
  date *> discard (option ((char 'T' <|> char 't' <|> char ' ') *> time *> option offset)) <|> time

end PixelScript.Toml
