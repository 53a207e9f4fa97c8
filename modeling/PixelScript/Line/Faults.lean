import PixelScript.Line

namespace PixelScript

/-- Where the color stands among the arguments, counted from 0. The coordinates stand before it. -/
def Verb.colorPlace? : Verb → Option Nat
  | dot => some 2
  | vertical | horizontal => some 3
  | create | clear | print => none

/-- The order in which faults count. -/
def Issue.rank : Issue → Nat
  | unsupported => 0
  | arity => 1
  | invalidColor => 2
  | notNumeric => 3
  | outOfRange => 4

theorem Verb.key_inj {v w : Verb} (h : v.key = w.key) : v = w := by
  have found := ofKey?_key v
  rw [h, ofKey?_key] at found
  exact (Option.some.inj found).symm

/-- How many of the arguments are coordinates. -/
def Verb.coordinates (verb : Verb) : Nat := verb.colorPlace?.getD verb.arity

theorem Verb.coordinates_le_arity (verb : Verb) : verb.coordinates ≤ verb.arity := by
  cases verb <;> decide

namespace Line

open Coordinate

/-- The tokens where a line with the key of the verb has its coordinates. -/
def coordinates (line : Line) (verb : Verb) : List String :=
  line.args.take verb.coordinates

/-- The token where it has its color, if it takes one. -/
def colorToken? (line : Line) (verb : Verb) : Option String :=
  verb.colorPlace?.bind (line.args[·]?)

/-- The line with these tokens in the place of as many of its first arguments. -/
def replaceFirst (line : Line) (tokens : List String) : Line :=
  { line with args := tokens ++ line.args.drop tokens.length }

/-- The faults of a line, each by itself and whatever else is wrong. -/
inductive Has (line : Line) : Fault → Prop
  | unsupported (h : ∀ verb : Verb, verb.key ≠ line.key) : Has line (.unsupported line.key)
  | arity {verb : Verb} (hv : verb.key = line.key) (h : line.args.length ≠ verb.arity) :
    Has line (.arity verb)
  | invalidColor {verb : Verb} {token : String} (hv : verb.key = line.key)
    (ht : token ∈ line.colorToken? verb) (h : ∀ color, Color.parse token ≠ .ok color) :
    Has line (.invalidColor verb)
  | notNumeric {verb : Verb} {token : String} (hv : verb.key = line.key)
    (ht : token ∈ line.coordinates verb) (h : read token = .notNumeric) :
    Has line (.notNumeric verb)
  | outOfRange {verb : Verb} {token : String} (hv : verb.key = line.key)
    (ht : token ∈ line.coordinates verb) (h : read token = .outOfRange) :
    Has line .outOfRange

/-- Readings that give no command. -/
def Faulty (readings : List Reading) : Prop := .notNumeric ∈ readings ∨ .outOfRange ∈ readings

/-- Once the color is settled, the coordinates are all good or decide the fault. -/
def Settled (verb : Verb) (readings : List Reading) (result : Except Fault Command) : Prop :=
  Faulty readings ∧ result = .error (coordinateFault verb readings) ∨
    ¬Faulty readings ∧ ∃ k, result = .ok k

variable {line : Line} {verb : Verb}

section Replace

variable {tokens : List String} (ha : line.args.length = verb.arity)

include ha

theorem length_coordinates : (line.coordinates verb).length = verb.coordinates := by
  rw [coordinates, List.length_take, ha]
  exact Nat.min_eq_left verb.coordinates_le_arity

variable (ht : tokens.length = verb.coordinates)

include ht

theorem length_replaceFirst : (line.replaceFirst tokens).args.length = verb.arity := by
  rw [replaceFirst, List.length_append, List.length_drop, ha, ht]
  exact Nat.add_sub_cancel' verb.coordinates_le_arity

omit ha in
theorem coordinates_replaceFirst : (line.replaceFirst tokens).coordinates verb = tokens :=
  List.take_left' ht

omit ha in
theorem colorToken?_replaceFirst :
    (line.replaceFirst tokens).colorToken? verb = line.colorToken? verb := by
  unfold colorToken?
  cases hp : verb.colorPlace? with
  | none => rfl
  | some place =>
    have first : tokens.length = place := by rw [ht, Verb.coordinates, hp]; rfl
    rw [Option.bind_some, Option.bind_some, replaceFirst,
      List.getElem?_append_right (Nat.le_of_eq first), List.getElem?_drop, first, Nat.sub_self,
      Nat.add_zero]

end Replace

/-- What a line has at fault, where it has the right number of arguments, is up to its color and to
which coordinates it has, in whatever order. -/
theorem Has.transfer {other : Line} {fault : Fault} (h : line.Has fault)
    (hv : verb.key = line.key) (ha : line.args.length = verb.arity) (hk : other.key = line.key)
    (hc : other.colorToken? verb = line.colorToken? verb)
    (hm : ∀ token ∈ line.coordinates verb, token ∈ other.coordinates verb) : other.Has fault := by
  have same {w : Verb} (hw : w.key = line.key) : w = verb := Verb.key_inj (hw.trans hv.symm)
  have hv' : verb.key = other.key := hv.trans hk.symm
  cases h with
  | unsupported unknown => exact absurd hv (unknown verb)
  | arity hw wrong =>
    cases same hw
    exact absurd ha wrong
  | invalidColor hw ht h =>
    cases same hw
    exact .invalidColor hv' (hc ▸ ht) h
  | notNumeric hw ht h =>
    cases same hw
    exact .notNumeric hv' (hm _ ht) h
  | outOfRange hw ht h =>
    cases same hw
    exact .outOfRange hv' (hm _ ht) h

theorem command_of_unsupported (h : ∀ verb : Verb, verb.key ≠ line.key) :
    line.command = .error (.unsupported line.key) := by
  unfold command
  cases hv : Verb.ofKey? line.key with
  | none => rfl
  | some verb => exact absurd (Verb.ofKey?_eq_some.mp hv) (h verb)

theorem command_of_arity (hv : verb.key = line.key) (h : line.args.length ≠ verb.arity) :
    line.command = .error (.arity verb) := by
  unfold command
  rw [Verb.ofKey?_eq_some.mpr hv]
  dsimp only
  split
  -- Every shape of the arguments that is read has the right number of them.
  all_goals first
    | next args =>
      rw [args] at h
      exact absurd rfl h
    | rfl

theorem settled_none (verb : Verb) (k : Command) : Settled verb [] (.ok k) :=
  .inr ⟨by simp [Faulty], k, rfl⟩

theorem settled_pair (verb : Verb) (r s : Reading) (command : Nat → Nat → Command) :
    Settled verb [r, s] (match r, s with
      | .value x, .value y => .ok (command x y)
      | r, s => .error (coordinateFault verb [r, s])) := by
  unfold Settled Faulty
  cases r <;> cases s <;> simp

theorem settled_triple (verb : Verb) (r s t : Reading) (command : Nat → Nat → Nat → Command) :
    Settled verb [r, s, t] (match r, s, t with
      | .value x, .value y, .value z => .ok (command x y z)
      | r, s, t => .error (coordinateFault verb [r, s, t])) := by
  unfold Settled Faulty
  cases r <;> cases s <;> cases t <;> simp

/-- A color that is refused decides the fault. -/
theorem settled_of_color {token : String} {readings : List Reading}
    {rest : Color → Except Fault Command} (h : ∀ color, Settled verb readings (rest color)) :
    let refused := ∃ t ∈ some token, ∀ color, Color.parse t ≠ .ok color
    let result := color verb token >>= rest
    refused ∧ result = .error (.invalidColor verb) ∨ ¬refused ∧ Settled verb readings result := by
  intro refused result
  unfold result color
  cases hc : Color.parse token with
  | error e => exact .inl ⟨by simp [refused, hc], rfl⟩
  | ok c => exact .inr ⟨by simp [refused, hc], h c⟩

theorem command_settled (hv : verb.key = line.key) (ha : line.args.length = verb.arity) :
    let refused := ∃ token ∈ line.colorToken? verb, ∀ color, Color.parse token ≠ .ok color
    refused ∧ line.command = .error (.invalidColor verb) ∨
      ¬refused ∧ Settled verb ((line.coordinates verb).map read) line.command := by
  intro refused
  obtain ⟨number, key, args⟩ := line
  have found : Verb.ofKey? key = some verb := Verb.ofKey?_eq_some.mpr hv
  have uncolored : ¬∃ token ∈ (none : Option String), ∀ color, Color.parse token ≠ .ok color := by
    simp
  unfold refused command
  rw [found]
  cases verb with
  | create =>
    match args, ha with
    | [h, w], _ => exact .inr ⟨uncolored, settled_pair _ (read h) (read w) _⟩
  | clear | print =>
    match args, ha with
    | [], _ => exact .inr ⟨uncolored, settled_none _ _⟩
  | dot =>
    match args, ha with
    | [x, y, t], _ => exact settled_of_color fun _ => settled_pair _ (read x) (read y) _
  | vertical | horizontal =>
    match args, ha with
    | [a, b, c, t], _ =>
      exact settled_of_color fun _ => settled_triple _ (read a) (read b) (read c) _

/-- A color that is accepted leaves it to the coordinates. -/
theorem command_of_faulty (hv : verb.key = line.key) (ha : line.args.length = verb.arity)
    (accepted : ¬∃ token ∈ line.colorToken? verb, ∀ color, Color.parse token ≠ .ok color)
    (faulty : Faulty ((line.coordinates verb).map read)) :
    line.command = .error (coordinateFault verb ((line.coordinates verb).map read)) := by
  obtain ⟨refused, _⟩ | ⟨_, ⟨_, ended⟩ | ⟨sound, _⟩⟩ := command_settled hv ha
  · exact absurd refused accepted
  · exact ended
  · exact absurd faulty sound

/-- The first fault of a line is the one that it is rejected for. -/
theorem command_of_first {fault : Fault} (has : line.Has fault)
    (first : ∀ other, line.Has other → fault.issue.rank ≤ other.issue.rank) :
    line.command = .error fault := by
  have length {verb : Verb} (hv : verb.key = line.key) (late : 1 < fault.issue.rank) :
      line.args.length = verb.arity :=
    Classical.not_not.mp fun wrong => Nat.not_le_of_lt late (first _ (.arity hv wrong))
  have color {verb : Verb} (hv : verb.key = line.key) (late : 2 < fault.issue.rank) :
      ¬∃ token ∈ line.colorToken? verb, ∀ color, Color.parse token ≠ .ok color :=
    fun ⟨_, ht, refused⟩ => Nat.not_le_of_lt late (first _ (.invalidColor hv ht refused))
  cases has with
  | unsupported h => exact command_of_unsupported h
  | arity hv h => exact command_of_arity hv h
  | invalidColor hv ht h =>
    obtain ⟨_, refused⟩ | ⟨accepted, _⟩ := command_settled hv (length hv (show 1 < 2 by decide))
    · exact refused
    · exact absurd ⟨_, ht, h⟩ accepted
  | notNumeric hv ht h =>
    have present := h ▸ List.mem_map_of_mem (f := read) ht
    have ha := length hv (show 1 < 3 by decide)
    rw [command_of_faulty hv ha (color hv (show 2 < 3 by decide)) (.inl present), coordinateFault,
      if_pos present]
  | @outOfRange verb token hv ht h =>
    have present := h ▸ List.mem_map_of_mem (f := read) ht
    have ha := length hv (show 1 < 4 by decide)
    have numeric : .notNumeric ∉ (line.coordinates verb).map read := by
      intro found
      obtain ⟨token, ht, hr⟩ := List.mem_map.mp found
      exact absurd (first _ (.notNumeric hv ht hr)) (show ¬4 ≤ 3 by decide)
    rw [command_of_faulty hv ha (color hv (show 2 < 4 by decide)) (.inr present), coordinateFault,
      if_neg numeric]

theorem exists_command_of_sound (sound : ∀ fault, ¬line.Has fault) :
    ∃ k, line.command = .ok k := by
  obtain ⟨verb, hv⟩ : ∃ verb : Verb, verb.key = line.key :=
    Classical.not_not.mp fun unknown => sound _ (.unsupported (not_exists.mp unknown))
  have ha := Classical.not_not.mp fun wrong => sound _ (.arity hv wrong)
  obtain ⟨⟨token, ht, refused⟩, _⟩ | ⟨_, ⟨faulty, _⟩ | ⟨_, taken⟩⟩ := command_settled hv ha
  · exact absurd (.invalidColor hv ht refused) (sound _)
  · obtain found | found := faulty
    · obtain ⟨token, ht, hr⟩ := List.mem_map.mp found
      exact absurd (.notNumeric hv ht hr) (sound _)
    · obtain ⟨token, ht, hr⟩ := List.mem_map.mp found
      exact absurd (.outOfRange hv ht hr) (sound _)
  · exact taken

end Line

end PixelScript
