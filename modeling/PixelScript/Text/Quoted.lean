namespace PixelScript.Text

namespace Hex

/-- The digit of a number below 16, in small letters. -/
def digit (n : Nat) : Char :=
  if n < 10 then Char.ofNat (48 + n) else Char.ofNat (87 + n)

/-- Letters count in either case. -/
def value? (c : Char) : Option Nat :=
  if c.isDigit then some (c.toNat - 48)
  else if 'a' ≤ c ∧ c ≤ 'f' then some (c.toNat - 87)
  else if 'A' ≤ c ∧ c ≤ 'F' then some (c.toNat - 55)
  else none

def isDigit (c : Char) : Bool := (value? c).isSome

/-- The number that digits write, unless one of the characters is no digit. -/
def number? (digits : List Char) : Option Nat :=
  digits.foldlM (fun n d => (value? d).map (16 * n + ·)) 0

theorem value?_digit : ∀ n, n < 16 → value? (digit n) = some n := by decide

end Hex

namespace Quoted

/-- How a character is written between quotes: quote, backslash and the characters below U+0020
are escaped and all others stand for themselves. -/
def escape (c : Char) : List Char :=
  match c with
  | '"' => ['\\', '"']
  | '\\' => ['\\', '\\']
  | '\n' => ['\\', 'n']
  | '\r' => ['\\', 'r']
  | '\t' => ['\\', 't']
  | '\x08' => ['\\', 'b']
  | '\x0c' => ['\\', 'f']
  | c =>
    if c.toNat < 0x20 then
      ['\\', 'u', '0', '0', Hex.digit (c.toNat / 16), Hex.digit (c.toNat % 16)]
    else [c]

def encode (s : String) : String :=
  String.ofList ('"' :: s.toList.flatMap escape ++ ['"'])

/-- What a letter after a backslash stands for. -/
def letter? : Char → Option Char
  | '"' => some '"'
  | '\\' => some '\\'
  | 'n' => some '\n'
  | 'r' => some '\r'
  | 't' => some '\t'
  | 'b' => some '\x08'
  | 'f' => some '\x0c'
  | _ => none

/-- Reads up to the closing quote, and gives what follows it too. -/
def decode : List Char → Option (List Char × List Char)
  | '\\' :: 'u' :: a :: b :: c :: d :: cs => do
    let n ← Hex.number? [a, b, c, d]
    (decode cs).map fun (text, rest) => (Char.ofNat n :: text, rest)
  | '\\' :: c :: cs => do
    let c ← letter? c
    (decode cs).map fun (text, rest) => (c :: text, rest)
  | '"' :: cs => some ([], cs)
  | c :: cs =>
    if c.toNat < 0x20 then none else (decode cs).map fun (text, rest) => (c :: text, rest)
  | [] => none

theorem number?_escape {n : Nat} (h : n < 0x20) :
    Hex.number? ['0', '0', Hex.digit (n / 16), Hex.digit (n % 16)] = some n := by
  have z : Hex.value? '0' = some 0 := by decide
  have h1 := Hex.value?_digit (n / 16) (by omega)
  have h2 := Hex.value?_digit (n % 16) (by omega)
  simp only [Hex.number?, List.foldlM, z, h1, h2, Option.map_some, Option.bind_eq_bind,
    Option.bind_some, Option.pure_def, Option.some.injEq]
  omega

/-- A character is escaped by a letter, by its number, or not at all. -/
theorem escape_cases (c : Char) :
    (∃ l, escape c = ['\\', l] ∧ l ≠ 'u' ∧ 0x20 ≤ l.toNat ∧ letter? l = some c) ∨
      c.toNat < 0x20 ∧ escape c =
        ['\\', 'u', '0', '0', Hex.digit (c.toNat / 16), Hex.digit (c.toNat % 16)] ∨
      0x20 ≤ c.toNat ∧ c ≠ '"' ∧ c ≠ '\\' ∧ escape c = [c] := by
  unfold escape
  split
  all_goals first
    | exact .inl ⟨_, rfl, by decide, by decide, rfl⟩
    | split
      · next low => exact .inr (.inl ⟨low, rfl⟩)
      · next high => exact .inr (.inr ⟨Nat.le_of_not_lt high, by assumption, by assumption, rfl⟩)

theorem decode_escape (c : Char) (cs : List Char) :
    decode (escape c ++ cs) = (decode cs).map fun (text, rest) => (c :: text, rest) := by
  obtain ⟨l, parts, other, _, read⟩ | ⟨low, parts⟩ | ⟨high, quote, backslash, parts⟩ :=
    escape_cases c
  · simp [parts, decode, other, read]
  · rw [parts]
    simp only [List.cons_append, List.nil_append]
    rw [decode, number?_escape low]
    simp [Char.ofNat_toNat]
  · simp [parts, decode, backslash, Nat.not_lt_of_le high]

/-- Every text is read back from between its quotes, whatever follows. -/
theorem decode_flatMap_escape (cs rest : List Char) :
    decode (cs.flatMap escape ++ '"' :: rest) = some (cs, rest) := by
  induction cs with
  | nil => simp [decode]
  | cons c cs ih =>
    rw [List.flatMap_cons, List.append_assoc, decode_escape, ih]
    rfl

end Quoted

end PixelScript.Text
