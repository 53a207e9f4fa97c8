import PixelScript.Fallible

namespace PixelScript

/-- Where pictures are written. It keeps the bytes that there is room for; `full` is the error of
a write beyond that, and `unflushed` that of every flush, if any. -/
structure Output where
  bytes : ByteArray
  room : Option Nat
  full : IoError
  unflushed : Option IoError

namespace Output

def unlimited : Output := ⟨.empty, none, .noSpace, none⟩

/-- Takes nothing at all. -/
def refusing : Output := ⟨.empty, some 0, .noSpace, none⟩

def write (o : Output) (text : String) : Output × Option IoError :=
  let data := text.toUTF8
  match o.room with
  | none => ({ o with bytes := o.bytes ++ data }, none)
  | some room =>
    if data.size ≤ room then
      ({ o with bytes := o.bytes ++ data, room := some (room - data.size) }, none)
    else
      ({ o with bytes := o.bytes ++ data.extract 0 room, room := some 0 }, some o.full)

/-- Neither a write nor a flush fails. -/
structure Endless (o : Output) : Prop where
  room : o.room = none
  unflushed : o.unflushed = none

def add (o : Output) (text : String) : Output :=
  { o with bytes := o.bytes ++ text.toUTF8 }

theorem Endless.add {o : Output} (h : o.Endless) (text : String) : (o.add text).Endless :=
  ⟨h.room, h.unflushed⟩

@[simp] theorem add_empty (o : Output) : o.add "" = o := by
  simp [Output.add]

@[simp] theorem add_add (o : Output) (a b : String) : (o.add a).add b = o.add (a ++ b) := by
  simp [Output.add, ByteArray.append_assoc]

theorem write_empty (o : Output) : o.write "" = (o, none) := by
  obtain ⟨bytes, room, full, unflushed⟩ := o
  cases room with
  | none => simp [write]
  | some room => simp [write]

theorem write_unlimited (o : Output) (text : String) (h : o.room = none) :
    o.write text = (o.add text, none) := by
  simp [write, Output.add, h]

end Output

/-- Where a sequence of writes got to: how many were tried, and the error of the last, if any. -/
structure Writing where
  output : Output
  tried : Nat
  failure : Option IoError

namespace Output

/-- A new output with room for so many bytes, and the error of a write beyond them. -/
def limited (room : Nat) (full : IoError) : Output := ⟨.empty, some room, full, none⟩

/-- Writes texts one after the other, up to the first that fails. -/
def writeAll (o : Output) : List String → Writing
  | [] => ⟨o, 0, none⟩
  | text :: texts =>
    match o.write text with
    | (o, none) =>
      let w := o.writeAll texts
      { w with tried := w.tried + 1 }
    | (o, some e) => ⟨o, 1, some e⟩

/-- Whether an output has room for so many bytes. -/
def Admits (o : Output) (size : Nat) : Prop := ∀ room ∈ o.room, size ≤ room

/-- What an output keeps of the bytes that it is offered. -/
def keeps (o : Output) (data : ByteArray) : ByteArray :=
  match o.room with
  | none => data
  | some room => data.extract 0 room

/-- What is left of an output after so many bytes more. -/
def shrink (o : Output) (size : Nat) : Output := { o with room := o.room.map (· - size) }

/-- Whether an output takes texts: it has room for all, and can be flushed. -/
def Accepts (o : Output) (texts : List String) : Prop :=
  o.Admits (String.join texts).toUTF8.size ∧ o.unflushed = none

theorem not_admits_iff {o : Output} {size : Nat} :
    ¬o.Admits size ↔ ∃ room, o.room = some room ∧ room < size := by
  simp [Admits]

theorem admits_add_iff {o : Output} {m n : Nat} :
    o.Admits (m + n) ↔ o.Admits m ∧ (o.shrink m).Admits n := by
  unfold Admits shrink
  cases o.room with
  | none => simp
  | some room =>
    simp only [Option.map_some, Option.mem_some_iff, forall_eq']
    omega

theorem admits_unlimited (size : Nat) : unlimited.Admits size := fun _ h => by cases h

theorem admits_limited_iff {room size : Nat} {full : IoError} :
    (limited room full).Admits size ↔ size ≤ room := by
  simp [Admits, limited]

theorem not_admits_of_full {o : Output} (full : o.room = some 0) {text : String}
    (h : text ≠ "") : ¬o.Admits text.toUTF8.size := by
  intro fits
  have nothing : text.toUTF8.size = 0 := Nat.le_zero.mp (fits 0 full)
  simp [h] at nothing

theorem write_of_admits {o : Output} {text : String} (h : o.Admits text.toUTF8.size) :
    o.write text = ((o.shrink text.toUTF8.size).add text, none) := by
  obtain ⟨bytes, room, full, unflushed⟩ := o
  cases room with
  | none => rfl
  | some room =>
    have fits : text.toUTF8.size ≤ room := h room rfl
    simp only [write, if_pos fits, shrink, add, Option.map_some]

theorem write_of_not_admits {o : Output} {text : String} (h : ¬o.Admits text.toUTF8.size) :
    o.write text =
      ({ o with bytes := o.bytes ++ o.keeps text.toUTF8, room := some 0 }, some o.full) := by
  obtain ⟨room, hr, beyond⟩ := not_admits_iff.mp h
  obtain ⟨bytes, _, full, unflushed⟩ := o
  cases hr
  simp only [write, if_neg (Nat.not_le_of_lt beyond), keeps]

theorem write_failure_eq_none_iff {o : Output} {text : String} :
    (o.write text).2 = none ↔ o.Admits text.toUTF8.size := by
  by_cases h : o.Admits text.toUTF8.size
  · rw [write_of_admits h]
    exact iff_of_true rfl h
  · rw [write_of_not_admits h]
    exact iff_of_false nofun h

theorem keeps_of_admits {o : Output} {data : ByteArray} (h : o.Admits data.size) :
    o.keeps data = data := by
  unfold keeps
  cases hr : o.room with
  | none => rfl
  | some room =>
    have fits : data.size ≤ room := h room hr
    have whole := ByteArray.extract_zero_max_size (a := data) (i := room)
    rw [Nat.max_eq_left fits] at whole
    exact whole

theorem keeps_limited (room : Nat) (full : IoError) (data : ByteArray) :
    (limited room full).keeps data = data.extract 0 (min room data.size) := by
  by_cases fits : data.size ≤ room
  · rw [keeps_of_admits (admits_limited_iff.mpr fits), Nat.min_eq_right fits,
      ByteArray.extract_zero_size]
  · rw [Nat.min_eq_left (Nat.le_of_not_le fits)]
    rfl

/-- After data that fits, the rest of the room is for the data that follows. -/
theorem keeps_append_of_admits {o : Output} {a : ByteArray} (h : o.Admits a.size)
    (b : ByteArray) : o.keeps (a ++ b) = a ++ (o.shrink a.size).keeps b := by
  have first := keeps_of_admits h
  unfold keeps shrink at *
  cases hr : o.room with
  | none => rfl
  | some room =>
    simp only [hr] at first
    simp only [Option.map_some]
    rw [ByteArray.extract_append, first, Nat.zero_sub]

/-- After data that does not fit, there is no room for more. -/
theorem keeps_append_of_not_admits {o : Output} {a : ByteArray} (h : ¬o.Admits a.size)
    (b : ByteArray) : o.keeps (a ++ b) = o.keeps a := by
  obtain ⟨room, hr, beyond⟩ := not_admits_iff.mp h
  have nothing : b.extract (0 - a.size) (room - a.size) = .empty := by
    rw [ByteArray.extract_eq_empty_iff]
    omega
  simp only [keeps, hr]
  rw [ByteArray.extract_append, nothing, ByteArray.append_empty]

/-- Texts written one after the other are as one text. -/
theorem writeAll_bytes (o : Output) (texts : List String) :
    (o.writeAll texts).output.bytes = o.bytes ++ o.keeps (String.join texts).toUTF8 := by
  induction texts generalizing o with
  | nil =>
    have nothing : o.keeps .empty = .empty := keeps_of_admits (by simp [Admits])
    simp [writeAll, nothing]
  | cons text texts ih =>
    have joined : (String.join (text :: texts)).toUTF8 =
        text.toUTF8 ++ (String.join texts).toUTF8 := by
      simp [String.join_cons]
    rw [joined, writeAll]
    -- The first text takes its bytes of the room, or all that there is.
    by_cases h : o.Admits text.toUTF8.size
    · rw [write_of_admits h, keeps_append_of_admits h]
      dsimp only
      rw [ih]
      simp [add, shrink, keeps, ByteArray.append_assoc]
    · rw [write_of_not_admits h, keeps_append_of_not_admits h]

theorem size_join_cons (text : String) (texts : List String) :
    (String.join (text :: texts)).toUTF8.size =
      text.toUTF8.size + (String.join texts).toUTF8.size := by
  simp [String.join_cons]

theorem writeAll_of_admits {o : Output} {texts : List String}
    (h : o.Admits (String.join texts).toUTF8.size) : (o.writeAll texts).failure = none := by
  induction texts generalizing o with
  | nil => rfl
  | cons text texts ih =>
    rw [size_join_cons, admits_add_iff] at h
    rw [writeAll, write_of_admits h.1]
    exact ih h.2

theorem writeAll_of_not_admits {o : Output} {texts : List String}
    (h : ¬o.Admits (String.join texts).toUTF8.size) :
    (o.writeAll texts).failure = some o.full := by
  induction texts generalizing o with
  | nil => exact absurd (fun _ _ => Nat.zero_le _) h
  | cons text texts ih =>
    rw [size_join_cons, admits_add_iff] at h
    rw [writeAll]
    by_cases first : o.Admits text.toUTF8.size
    · rw [write_of_admits first]
      exact ih fun rest => h ⟨first, rest⟩
    · rw [write_of_not_admits first]

/-- The writes succeed exactly if there is room for all. -/
theorem writeAll_failure_eq_none_iff {o : Output} {texts : List String} :
    (o.writeAll texts).failure = none ↔ o.Admits (String.join texts).toUTF8.size := by
  constructor
  · intro ended
    apply Classical.byContradiction
    intro h
    rw [writeAll_of_not_admits h] at ended
    cases ended
  · exact writeAll_of_admits

/-- Two outputs that take and refuse the same, whatever each holds already. -/
structure Alike (o p : Output) : Prop where
  room : o.room = p.room
  full : o.full = p.full
  unflushed : o.unflushed = p.unflushed

theorem Alike.admits_iff {o p : Output} (h : o.Alike p) {size : Nat} :
    o.Admits size ↔ p.Admits size := by
  rw [Admits, Admits, h.room]

theorem Alike.keeps {o p : Output} (h : o.Alike p) (data : ByteArray) :
    o.keeps data = p.keeps data := by
  rw [Output.keeps, Output.keeps, h.room]

/-- Alike outputs get equally far. -/
theorem Alike.tried {o p : Output} (h : o.Alike p) (texts : List String) :
    (o.writeAll texts).tried = (p.writeAll texts).tried := by
  induction texts generalizing o p with
  | nil => rfl
  | cons text texts ih =>
    rw [writeAll, writeAll]
    by_cases first : o.Admits text.toUTF8.size
    · rw [write_of_admits first, write_of_admits (h.admits_iff.mp first)]
      have rest : ((o.shrink text.toUTF8.size).add text).Alike
          ((p.shrink text.toUTF8.size).add text) := by
        refine ⟨?_, h.full, h.unflushed⟩
        simp only [add, shrink, h.room]
      exact congrArg (· + 1) (ih rest)
    · rw [write_of_not_admits first, write_of_not_admits (first ∘ h.admits_iff.mpr)]

theorem Alike.failure {o p : Output} (h : o.Alike p) (texts : List String) :
    (o.writeAll texts).failure = (p.writeAll texts).failure := by
  by_cases all : o.Admits (String.join texts).toUTF8.size
  · rw [writeAll_of_admits all, writeAll_of_admits (h.admits_iff.mp all)]
  · rw [writeAll_of_not_admits all, writeAll_of_not_admits (all ∘ h.admits_iff.mpr), h.full]

theorem writeAll_unflushed (o : Output) (texts : List String) :
    (o.writeAll texts).output.unflushed = o.unflushed := by
  induction texts generalizing o with
  | nil => rfl
  | cons text texts ih =>
    rw [writeAll]
    by_cases h : o.Admits text.toUTF8.size
    · rw [write_of_admits h]
      exact ih _
    · rw [write_of_not_admits h]

end Output

end PixelScript
