import PixelScript.Text.Quoted

namespace PixelScript.Text

namespace Decimal

/-- The number that a text starts with, if it is as numbers are written, and what follows. -/
def read (cs : List Char) : Option (Nat × List Char) :=
  let digits := cs.takeWhile Char.isDigit
  let n := Nat.ofDigitChars 10 digits 0
  if Nat.toDigits 10 n = digits then some (n, cs.dropWhile Char.isDigit) else none

/-- A number is read back up to where its digits end. -/
theorem read_toDigits (n : Nat) {rest : List Char} (h : ∀ c ∈ rest.head?, c.isDigit = false) :
    read (Nat.toDigits 10 n ++ rest) = some (n, rest) := by
  have digits : ∀ c ∈ Nat.toDigits 10 n, c.isDigit :=
    fun c hc => Nat.isDigit_of_mem_toDigits (by decide) (by decide) hc
  have taken : rest.takeWhile Char.isDigit = [] := by
    cases rest with
    | nil => rfl
    | cons c rest => simp [h c rfl]
  have left : rest.dropWhile Char.isDigit = rest := by
    cases rest with
    | nil => rfl
    | cons c rest => simp [h c rfl]
  unfold read
  dsimp only
  rw [List.takeWhile_append_of_pos digits, List.dropWhile_append_of_pos digits, taken, left,
    List.append_nil, Nat.ofDigitChars_ten_toDigits]
  exact if_pos rfl

end Decimal

namespace Json

/-- What a member of an object holds. -/
inductive Value where
  | number (n : Nat)
  | string (s : String)
  deriving DecidableEq

abbrev Member := String × Value

def Value.text : Value → String
  | number n => toString n
  | string s => Quoted.encode s

def memberText (m : Member) : String := Quoted.encode m.1 ++ ":" ++ m.2.text

/-- An object without blanks between its parts. -/
def objectText (ms : List Member) : String :=
  "\x7b" ++ ",".intercalate (ms.map memberText) ++ "\x7d"

def value? : List Char → Option (Value × List Char)
  | '"' :: cs => (Quoted.decode cs).map fun (s, rest) => (.string (String.ofList s), rest)
  | cs => (Decimal.read cs).map fun (n, rest) => (.number n, rest)

def member? : List Char → Option (Member × List Char)
  | '"' :: cs =>
    match Quoted.decode cs with
    | some (key, ':' :: cs) => (value? cs).map fun (v, rest) => ((String.ofList key, v), rest)
    | _ => none
  | _ => none

/-- Members up to the closing brace, with nothing after it. -/
def members? (cs : List Char) : Option (List Member) :=
  match member? cs with
  | some (m, ['\x7d']) => some [m]
  | some (m, ',' :: rest) =>
    if _h : rest.length < cs.length then (members? rest).map (m :: ·) else none
  | _ => none
termination_by cs.length

/-- Reads an object without blanks between its parts, whose members hold whole numbers and strings. -/
def object? : List Char → Option (List Member)
  | ['\x7b', '\x7d'] => some []
  | '\x7b' :: cs => members? cs
  | _ => none

theorem toList_encode (s : String) :
    (Quoted.encode s).toList = '"' :: (s.toList.flatMap Quoted.escape ++ ['"']) := by
  rw [Quoted.encode, String.toList_ofList]
  rfl

theorem decode_encode (s : String) (rest : List Char) :
    Quoted.decode (s.toList.flatMap Quoted.escape ++ ['"'] ++ rest) = some (s.toList, rest) := by
  rw [List.append_assoc]
  exact Quoted.decode_flatMap_escape s.toList rest

/-- A value is read back up to where it ends; only digits could make it longer. -/
theorem value?_text (v : Value) {rest : List Char} (h : ∀ c ∈ rest.head?, c.isDigit = false) :
    value? (v.text.toList ++ rest) = some (v, rest) := by
  cases v with
  | number n =>
    have digits : (Value.number n).text.toList = Nat.toDigits 10 n := Nat.toList_repr
    have bare : ∀ cs, Nat.toDigits 10 n ++ rest = '"' :: cs → False := by
      intro cs hcs
      cases hd : Nat.toDigits 10 n with
      | nil => exact Nat.toDigits_ne_nil hd
      | cons d ds =>
        rw [hd] at hcs
        have quote : d = '"' := (List.cons.inj hcs).1
        have digit : d.isDigit :=
          Nat.isDigit_of_mem_toDigits (by decide) (by decide) (hd ▸ List.mem_cons_self)
        rw [quote] at digit
        exact absurd digit (by decide)
    rw [digits, value?.eq_2 _ bare, Decimal.read_toDigits n h]
    rfl
  | string s =>
    rw [Value.text, toList_encode, List.cons_append, value?, decode_encode]
    simp

theorem member?_text (m : Member) {rest : List Char} (h : ∀ c ∈ rest.head?, c.isDigit = false) :
    member? ((memberText m).toList ++ rest) = some (m, rest) := by
  obtain ⟨key, v⟩ := m
  have parts : (memberText (key, v)).toList ++ rest =
      '"' :: (key.toList.flatMap Quoted.escape ++ ['"'] ++ ':' :: (v.text.toList ++ rest)) := by
    simp [memberText, toList_encode]
  rw [parts, member?, decode_encode]
  simp only [value?_text v h, Option.map_some, String.ofList_toList]

theorem members?_last (m : Member) : members? ((memberText m).toList ++ ['\x7d']) = some [m] := by
  rw [members?, member?_text m (by simp)]
  rfl

theorem members?_cons (m : Member) (rest : List Char) :
    members? ((memberText m).toList ++ ',' :: rest) = (members? rest).map (m :: ·) := by
  have shorter : rest.length < ((memberText m).toList ++ ',' :: rest).length := by
    rw [List.length_append, List.length_cons]
    omega
  rw [members?, member?_text m (by simp)]
  simp only [dif_pos shorter]

theorem members?_texts (m : Member) (ms : List Member) :
    members? ((",".intercalate ((m :: ms).map memberText)).toList ++ ['\x7d']) =
      some (m :: ms) := by
  induction ms generalizing m with
  | nil =>
    rw [List.map_singleton, String.intercalate_singleton]
    exact members?_last m
  | cons m' ms ih =>
    have parts : (",".intercalate ((m :: m' :: ms).map memberText)).toList ++ ['\x7d'] =
        (memberText m).toList ++
          ',' :: ((",".intercalate ((m' :: ms).map memberText)).toList ++ ['\x7d']) := by
      simp [String.intercalate_cons_cons]
    rw [parts, members?_cons, ih m']
    rfl

/-- Every object is read back. -/
theorem object?_objectText (ms : List Member) : object? (objectText ms).toList = some ms := by
  cases ms with
  | nil => rfl
  | cons m ms =>
    have parts : (objectText (m :: ms)).toList =
        '\x7b' :: ((",".intercalate ((m :: ms).map memberText)).toList ++ ['\x7d']) := by
      simp [objectText]
    have open_end : (",".intercalate ((m :: ms).map memberText)).toList ++ ['\x7d'] = ['\x7d'] →
        False := by
      intro empty
      have none_read : members? ['\x7d'] = none := by
        rw [members?]
        rfl
      have all_read := members?_texts m ms
      rw [empty, none_read] at all_read
      cases all_read
    rw [parts, object?.eq_2 _ open_end, members?_texts]

section Printable

/-- Without a character below U+0020. -/
def Printable (text : String) : Prop := ∀ c ∈ text.toList, 0x20 ≤ c.toNat

instance (text : String) : Decidable (Printable text) :=
  decidable_of_iff (text.toList.all (0x20 ≤ ·.toNat)) (by simp [Printable])

theorem printable_digit : ∀ n, n < 16 → 0x20 ≤ (Hex.digit n).toNat := by decide

theorem printable_escape (c : Char) : ∀ d ∈ Quoted.escape c, 0x20 ≤ d.toNat := by
  obtain ⟨l, parts, _, high, _⟩ | ⟨low, parts⟩ | ⟨high, _, _, parts⟩ := Quoted.escape_cases c
  · rw [parts]
    simp only [List.forall_mem_cons]
    exact ⟨by decide, high, by simp⟩
  · have first := printable_digit (c.toNat / 16) (by omega)
    have second := printable_digit (c.toNat % 16) (by omega)
    rw [parts]
    simp only [List.forall_mem_cons]
    exact ⟨by decide, by decide, by decide, by decide, first, second, by simp⟩
  · rw [parts]
    simp only [List.forall_mem_cons]
    exact ⟨high, by simp⟩

theorem Printable.append {a b : String} (ha : Printable a) (hb : Printable b) :
    Printable (a ++ b) := by
  intro c hc
  rw [String.toList_append, List.mem_append] at hc
  exact hc.elim (ha c) (hb c)

theorem printable_encode (s : String) : Printable (Quoted.encode s) := by
  intro c hc
  rw [toList_encode, List.mem_cons, List.mem_append] at hc
  obtain rfl | hc | hc := hc
  · decide
  · obtain ⟨d, _, hc⟩ := List.mem_flatMap.mp hc
    exact printable_escape d c hc
  · cases List.mem_singleton.mp hc
    decide

theorem printable_value (v : Value) : Printable v.text := by
  cases v with
  | number n =>
    intro c hc
    have digits : (Value.number n).text.toList = Nat.toDigits 10 n := Nat.toList_repr
    rw [digits] at hc
    have range := Char.isDigit_iff_toNat.mp
      (Nat.isDigit_of_mem_toDigits (by decide) (by decide) hc)
    have lowest : '0'.toNat = 48 := rfl
    omega
  | string s => exact printable_encode s

theorem printable_objectText (ms : List Member) : Printable (objectText ms) := by
  have members : Printable (",".intercalate (ms.map memberText)) := by
    induction ms with
    | nil => simp [Printable]
    | cons m ms ih =>
      have first : Printable (memberText m) :=
        ((printable_encode m.1).append (by decide)).append (printable_value m.2)
      cases ms with
      | nil =>
        rw [List.map_singleton, String.intercalate_singleton]
        exact first
      | cons m' ms =>
        rw [List.map_cons, List.map_cons, String.intercalate_cons_cons, ← List.map_cons]
        exact (first.append (by decide)).append ih
  exact (Printable.append (by decide) members).append (by decide)

end Printable

end Json

end PixelScript.Text
