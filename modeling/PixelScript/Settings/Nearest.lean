import PixelScript.Path.Ancestors
import PixelScript.Settings

namespace PixelScript.Settings

open PixelScript.Path

/-- The search given up after so many directories; `none` if it has not ended by then. -/
def nearestWithin (holds : String → Bool) : Nat → String → Option (Option String)
  | 0, _ => none
  | turns + 1, dir =>
    if holds (join dir fileName) then some (some (join dir fileName))
    else
      match parent? dir with
      | none => some none
      | some above => nearestWithin holds turns above

/-- The first directory on the way up that has a settings file. -/
structure IsFirst (holds : String → Bool) (start : String) (n : Nat) (dir : String) : Prop where
  reached : ancestor? start n = some dir
  found : holds (join dir fileName) = true
  before : ∀ m < n, ∀ below, ancestor? start m = some below → holds (join below fileName) = false

variable {holds : String → Bool}

/-- The search looks into one directory for each name of the path, and into one more. -/
theorem nearestWithin_eq {turns : Nat} {start : String} (h : (names start).length < turns) :
    nearestWithin holds turns start = some (nearest holds start) := by
  obtain ⟨turns, rfl⟩ := Nat.exists_eq_add_one_of_ne_zero (Nat.ne_zero_of_lt h)
  fun_induction nearest holds start generalizing turns with
  | case1 start here found =>
    rw [nearestWithin, if_pos found]
  | case2 start here absent top =>
    rw [nearestWithin, if_neg absent, top]
  | case3 start here absent above up ih =>
    obtain ⟨last, whole⟩ := names_of_parent? up
    have longer := congrArg List.length whole
    rw [List.length_append, List.length_singleton] at longer
    obtain ⟨turns, rfl⟩ := Nat.exists_eq_add_one_of_ne_zero (n := turns) (by omega)
    rw [nearestWithin, if_neg absent, up]
    exact ih turns (by omega)

theorem ancestor?_of_parent {start above : String} (up : parent? start = some above) (n : Nat) :
    ancestor? start (n + 1) = ancestor? above n := by
  rw [ancestor?_add_one, up, Option.bind_some]

theorem IsFirst.of_parent {start above dir : String} {n : Nat} (h : IsFirst holds above n dir)
    (up : parent? start = some above) (absent : holds (join start fileName) = false) :
    IsFirst holds start (n + 1) dir := by
  refine ⟨(ancestor?_of_parent up n).trans h.reached, h.found, ?_⟩
  intro m hm below reached
  cases m with
  | zero =>
    cases reached
    exact absent
  | succ m =>
    rw [ancestor?_of_parent up] at reached
    exact h.before m (Nat.lt_of_succ_lt_succ hm) below reached

theorem IsFirst.unique {start dir other : String} {m n : Nat} (h : IsFirst holds start m dir)
    (h' : IsFirst holds start n other) : dir = other := by
  obtain earlier | same | later := Nat.lt_trichotomy m n
  · exact absurd h.found (Bool.eq_false_iff.mp (h'.before m earlier dir h.reached))
  · rw [same] at h
    exact Option.some.inj (h.reached.symm.trans h'.reached)
  · exact absurd h'.found (Bool.eq_false_iff.mp (h.before n later other h'.reached))

/-- The search finds nothing, if no directory on the way up has a settings file, or what the first
one has. -/
theorem nearest_cases (holds : String → Bool) (start : String) :
    (nearest holds start = none ∧
      ∀ n dir, ancestor? start n = some dir → holds (join dir fileName) = false) ∨
    ∃ n dir, IsFirst holds start n dir ∧ nearest holds start = some (join dir fileName) := by
  fun_induction nearest holds start with
  | case1 start here found =>
    refine .inr ⟨0, start, ⟨rfl, found, ?_⟩, rfl⟩
    intro m hm
    cases hm
  | case2 start here absent top =>
    refine .inl ⟨rfl, ?_⟩
    intro n dir reached
    cases n with
    | zero =>
      cases reached
      exact Bool.eq_false_iff.mpr absent
    | succ n =>
      rw [ancestor?_add_one, top] at reached
      cases reached
  | case3 start here absent above up ih =>
    have absent : holds (join start fileName) = false := Bool.eq_false_iff.mpr absent
    obtain ⟨nothing, without⟩ | ⟨n, dir, first, found⟩ := ih
    · refine .inl ⟨nothing, ?_⟩
      intro n dir reached
      cases n with
      | zero =>
        cases reached
        exact absent
      | succ n =>
        rw [ancestor?_of_parent up] at reached
        exact without n dir reached
    · exact .inr ⟨n + 1, dir, first.of_parent up absent, found⟩

theorem nearest_eq_none_iff {start : String} :
    nearest holds start = none ↔
      ∀ n dir, ancestor? start n = some dir → holds (join dir fileName) = false := by
  obtain ⟨nothing, without⟩ | ⟨n, dir, first, found⟩ := nearest_cases holds start
  · exact ⟨fun _ => without, fun _ => nothing⟩
  · rw [found]
    constructor
    · intro nothing
      cases nothing
    · intro without
      exact absurd first.found (Bool.eq_false_iff.mp (without n dir first.reached))

theorem nearest_eq_some_iff {start path : String} :
    nearest holds start = some path ↔
      ∃ n dir, IsFirst holds start n dir ∧ path = join dir fileName := by
  obtain ⟨nothing, without⟩ | ⟨n, dir, first, found⟩ := nearest_cases holds start
  · rw [nothing]
    constructor
    · intro found
      cases found
    · rintro ⟨n, dir, first, _⟩
      exact absurd first.found (Bool.eq_false_iff.mp (without n dir first.reached))
  · rw [found]
    constructor
    · rintro ⟨⟩
      exact ⟨n, dir, first, rfl⟩
    · rintro ⟨m, other, also, rfl⟩
      rw [first.unique also]

end PixelScript.Settings
