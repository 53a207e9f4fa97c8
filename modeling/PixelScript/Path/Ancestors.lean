import PixelScript.Path

namespace PixelScript.Path

/-- Starts in the root directory. -/
def IsAbsolute (path : String) : Prop := path.toList.head? = some '/'

instance (path : String) : Decidable (IsAbsolute path) :=
  inferInstanceAs (Decidable (path.toList.head? = some '/'))

/-- The path after so many steps to the parent. -/
def ancestor? (path : String) : Nat → Option String
  | 0 => some path
  | n + 1 => (ancestor? path n).bind parent?

/-- A path cut off after so many of its names. -/
structure IsCut (dir path : String) (kept : Nat) : Prop where
  text : dir.toList <+: path.toList
  absolute : IsAbsolute dir ↔ IsAbsolute path
  names : names dir = (Path.names path).take kept

theorem parent?_eq_some_iff {path parent : String} :
    parent? path = some parent ↔ parentChars path.toList = some parent.toList := by
  rw [parent?, Option.map_eq_some_iff]
  constructor
  · rintro ⟨cs, hc, rfl⟩
    rw [hc, String.toList_ofList]
  · intro h
    exact ⟨_, h, String.ofList_toList⟩

/-- The way up ends where no name is left. -/
theorem parent?_eq_none_iff {path : String} : parent? path = none ↔ names path = [] := by
  rw [parent?, Option.map_eq_none_iff, parentChars_eq_none_iff, names, List.map_eq_nil_iff]

theorem head?_parentChars {path parent : List Char} (h : parentChars path = some parent) :
    parent.head? = some '/' ↔ path.head? = some '/' := by
  constructor
  · intro top
    obtain ⟨below, rfl⟩ := prefix_of_parentChars h
    rw [List.head?_append, top]
    rfl
  · intro top
    obtain ⟨cs, rfl⟩ := List.head?_eq_some_iff.mp top
    have front : ('/' :: cs).splitOn '/' = [] :: cs.splitOn '/' :=
      List.splitOn_append_cons_self [] cs
    obtain ⟨first, rest, pieces, ⟨named, _⟩ | ⟨above, last, _, _, rfl⟩⟩ := parentChars_cases h
    · rw [front] at pieces
      exact absurd (List.cons.inj pieces).1.symm named
    · obtain rfl := (List.cons.inj (front.symm.trans pieces)).1
      split
      · rfl
      · next below =>
        cases hd : dropIdle above with
        | nil => exact absurd ⟨rfl, hd⟩ below
        | cons name names =>
          rw [List.intercalate_cons_cons]
          rfl

/-- The last parent is the root directory or the empty path. -/
theorem parentChars_top {path parent : List Char} (h : parentChars path = some parent)
    (top : nameChars parent = []) : parent = [] ∨ parent = ['/'] := by
  obtain ⟨name, names⟩ := nameChars_of_parentChars h
  obtain ⟨first, rest, pieces, ⟨_, _, rfl⟩ | ⟨above, last, _, kept, same⟩⟩ := parentChars_cases h
  · exact .inl rfl
  · rw [nameChars_of_splitOn pieces, kept, ← List.append_assoc, top] at names
    obtain ⟨front, idle⟩ := List.append_eq_nil_iff.mp (List.append_inj_left' names rfl)
    have unnamed : first = [] := by simpa using front
    rw [if_pos ⟨unnamed, dropIdle_eq_nil_iff.mpr idle⟩] at same
    exact .inr same

theorem prefix_of_parent? {path parent : String} (h : parent? path = some parent) :
    parent.toList <+: path.toList :=
  prefix_of_parentChars (parent?_eq_some_iff.mp h)

theorem names_of_parent? {path parent : String} (h : parent? path = some parent) :
    ∃ last, names path = names parent ++ [last] := by
  obtain ⟨last, same⟩ := nameChars_of_parentChars (parent?_eq_some_iff.mp h)
  refine ⟨String.ofList last, ?_⟩
  rw [names, same, List.map_append]
  rfl

theorem isAbsolute_parent? {path parent : String} (h : parent? path = some parent) :
    IsAbsolute parent ↔ IsAbsolute path :=
  head?_parentChars (parent?_eq_some_iff.mp h)

theorem parent?_top {path parent : String} (h : parent? path = some parent)
    (top : names parent = []) : parent = "" ∨ parent = "/" := by
  have ends := parentChars_top (parent?_eq_some_iff.mp h) (List.map_eq_nil_iff.mp top)
  exact ends.imp String.toList_inj.mp String.toList_inj.mp

theorem eq_empty_of_names_eq_nil {path : String} (relative : ¬IsAbsolute path)
    (nameless : names path = []) : path = "" := by
  cases chars : path.toList with
  | nil => exact String.toList_eq_nil_iff.mp chars
  | cons c cs =>
    have begun : (c == '/') = false := by
      simpa [IsAbsolute, chars] using relative
    cases pieces : cs.splitOn '/' with
    | nil => exact absurd pieces (List.splitOn_ne_nil '/' cs)
    | cons first rest =>
      have front : (c :: cs).splitOn '/' = (c :: first) :: rest := by
        simp [List.splitOn_cons_eq_if_modifyHead, begun, pieces]
      rw [names, chars, nameChars_of_splitOn front] at nameless
      simp at nameless

theorem IsCut.parent {dir path above : String} {kept : Nat} (h : IsCut dir path (kept + 1))
    (hk : kept < (Path.names path).length) (up : parent? dir = some above) :
    IsCut above path kept := by
  refine ⟨(prefix_of_parent? up).trans h.text, (isAbsolute_parent? up).trans h.absolute, ?_⟩
  obtain ⟨last, names⟩ := names_of_parent? up
  rw [h.names, List.take_succ_eq_append_getElem hk] at names
  exact (List.append_inj_left' names rfl).symm

theorem IsCut.names_isPrefix {dir path : String} {kept : Nat} (h : IsCut dir path kept) :
    Path.names dir <+: Path.names path := by
  rw [h.names]
  exact List.take_prefix kept _

theorem ancestor?_add_one (path : String) (n : Nat) :
    ancestor? path (n + 1) = (parent? path).bind (ancestor? · n) := by
  induction n with
  | zero => cases h : parent? path <;> simp [ancestor?, h]
  | succ n ih =>
    rw [ancestor?, ih]
    cases parent? path <;> rfl

/-- Each step up takes one name off, for as long as there is one. -/
theorem ancestor?_isCut {path : String} {n : Nat} (h : n ≤ (names path).length) :
    ∃ dir, ancestor? path n = some dir ∧ IsCut dir path ((names path).length - n) := by
  induction n with
  | zero =>
    refine ⟨path, rfl, List.prefix_rfl, Iff.rfl, ?_⟩
    rw [Nat.sub_zero, List.take_length]
  | succ n ih =>
    obtain ⟨dir, reached, cut⟩ := ih (by omega)
    have left : (names path).length - n = (names path).length - (n + 1) + 1 := by omega
    rw [left] at cut
    have named : names dir ≠ [] := by
      rw [cut.names]
      intro empty
      have := congrArg List.length empty
      rw [List.length_take, List.length_nil] at this
      omega
    cases up : parent? dir with
    | none => exact absurd (parent?_eq_none_iff.mp up) named
    | some above =>
      refine ⟨above, ?_, cut.parent (by omega) up⟩
      rw [ancestor?, reached, Option.bind_some, up]

theorem ancestor?_eq_none {path : String} {n : Nat} (h : (names path).length < n) :
    ancestor? path n = none := by
  induction n with
  | zero => omega
  | succ n ih =>
    rw [ancestor?]
    by_cases beyond : (names path).length < n
    · rw [ih beyond]
      rfl
    · have last : n = (names path).length := by omega
      obtain ⟨dir, reached, cut⟩ := ancestor?_isCut (Nat.le_of_eq last)
      rw [last, Nat.sub_self] at cut
      rw [reached]
      exact parent?_eq_none_iff.mpr cut.names

theorem isCut_of_ancestor? {path dir : String} {n : Nat} (h : ancestor? path n = some dir) :
    n ≤ (names path).length ∧ IsCut dir path ((names path).length - n) := by
  have upto : n ≤ (names path).length := by
    apply Nat.le_of_not_lt
    intro beyond
    rw [ancestor?_eq_none beyond] at h
    cases h
  obtain ⟨other, reached, cut⟩ := ancestor?_isCut upto
  cases h.symm.trans reached
  exact ⟨upto, cut⟩

/-- However many names are to be left, an ancestor has just these. -/
theorem exists_ancestor? {path : String} {kept : Nat} (h : kept ≤ (names path).length) :
    ∃ dir, ancestor? path ((names path).length - kept) = some dir ∧ IsCut dir path kept := by
  obtain ⟨dir, reached, cut⟩ := ancestor?_isCut (Nat.sub_le (names path).length kept)
  rw [Nat.sub_sub_self h] at cut
  exact ⟨dir, reached, cut⟩

/-- The way up ends at the empty path, or at the root directory, which may be spelled otherwise
only if the way starts there. -/
theorem ancestor?_top (path : String) :
    ∃ top, ancestor? path (names path).length = some top ∧ parent? top = none ∧
      if IsAbsolute path then top = "/" ∨ names path = [] ∧ top = path else top = "" := by
  obtain ⟨top, reached, cut⟩ := ancestor?_isCut (Nat.le_refl (names path).length)
  rw [Nat.sub_self] at cut
  have nameless : names top = [] := cut.names
  refine ⟨top, reached, parent?_eq_none_iff.mpr nameless, ?_⟩
  split
  · next absolute =>
    cases depth : (names path).length with
    | zero =>
      rw [depth] at reached
      exact .inr ⟨List.length_eq_zero_iff.mp depth, (Option.some.inj reached).symm⟩
    | succ n =>
      rw [depth] at reached
      obtain ⟨dir, _, up⟩ := Option.bind_eq_some_iff.mp reached
      obtain rfl | root := parent?_top up nameless
      · cases cut.absolute.mpr absolute
      · exact .inl root
  · next relative =>
    exact eq_empty_of_names_eq_nil (fun absolute => relative (cut.absolute.mp absolute)) nameless

theorem nameChars_append_slash (above below : List Char) :
    nameChars (above ++ '/' :: below) =
      nameChars above ++ (below.splitOn '/').filter (!isIdle ·) := by
  rw [nameChars, List.splitOn_append_cons_self]
  cases pieces : above.splitOn '/' with
  | nil => exact absurd pieces (List.splitOn_ne_nil '/' above)
  | cons first rest =>
    rw [nameChars_of_splitOn pieces, List.append_assoc, ← List.filter_append]
    rfl

/-- However a directory's path ends, one slash stands between its names and one more. -/
theorem exists_join {dir : String} (h : dir ≠ "") (name : String) :
    ∃ above, (join dir name).toList = above ++ '/' :: name.toList ∧
      nameChars above = nameChars dir.toList := by
  unfold join
  split
  · next ends =>
    obtain ⟨above, parts⟩ := List.getLast?_eq_some_iff.mp (ends.resolve_left h)
    refine ⟨above, ?_, ?_⟩
    · rw [String.toList_append, parts, List.append_assoc]
      rfl
    · rw [parts, nameChars_append_slash]
      simp [isIdle]
  · refine ⟨dir.toList, ?_, rfl⟩
    rw [String.toList_append, String.toList_append, List.append_assoc]
    rfl

theorem join_empty (name : String) : join "" name = name := by
  rw [join, if_pos (.inl rfl), String.empty_append]

theorem names_join (dir : String) {name : String} (apart : '/' ∉ name.toList)
    (busy : isIdle name.toList = false) : names (join dir name) = names dir ++ [name] := by
  have alone : name.toList.splitOn '/' = [name.toList] := List.splitOn_eq_singleton apart
  have single : [name] = [name.toList].map String.ofList := by simp
  by_cases empty : dir = ""
  · have named : name.toList ≠ [] := by
      intro hn
      rw [hn] at busy
      cases busy
    rw [empty, join_empty, names, nameChars_of_splitOn alone, if_neg named, single]
    rfl
  · obtain ⟨above, parts, same⟩ := exists_join empty name
    rw [names, names, parts, nameChars_append_slash, same, alone, List.map_append, single]
    simp [busy]

theorem isAbsolute_join (dir : String) {name : String} (apart : '/' ∉ name.toList) :
    IsAbsolute (join dir name) ↔ IsAbsolute dir := by
  by_cases empty : dir = ""
  · rw [empty, join_empty]
    constructor
    · intro top
      exact absurd (List.mem_of_head? top) apart
    · intro top
      cases top
  · have front : ∃ rest, (join dir name).toList = dir.toList ++ rest := by
      unfold join
      split
      · exact ⟨_, String.toList_append⟩
      · rw [String.append_assoc]
        exact ⟨_, String.toList_append⟩
    obtain ⟨rest, parts⟩ := front
    rw [IsAbsolute, IsAbsolute, parts]
    cases chars : dir.toList with
    | nil => exact absurd (String.toList_eq_nil_iff.mp chars) empty
    | cons c cs => rfl

end PixelScript.Path
