import PixelScript.Text.Blank

namespace PixelScript.Path

/-- A name that leads nowhere else: none between two slashes, or a dot. -/
def isIdle (name : List Char) : Bool := name = [] || name = ['.']

def dropIdle (names : List (List Char)) : List (List Char) :=
  (names.reverse.dropWhile isIdle).reverse

/-- The path without its last name. The root directory and the empty path have no parent, and
that of a single relative name is the empty path. -/
def parentChars (path : List Char) : Option (List Char) :=
  match path.splitOn '/' with
  | [] => none
  | first :: rest =>
    match dropIdle rest with
    | [] => if first = [] then none else some []
    | names =>
      let above := dropIdle names.dropLast
      if first = [] ∧ above = [] then some ['/'] else some (['/'].intercalate (first :: above))

def parent? (path : String) : Option String :=
  (parentChars path.toList).map String.ofList

/-- The path to `name` in the directory `path`. -/
def join (path name : String) : String :=
  if path = "" ∨ path.toList.getLast? = some '/' then path ++ name else path ++ "/" ++ name

/-- The names that a path leads through. A dot is one only at the front of a relative path. -/
def nameChars (path : List Char) : List (List Char) :=
  match path.splitOn '/' with
  | [] => []
  | first :: rest => (if first = [] then [] else [first]) ++ rest.filter (!isIdle ·)

def names (path : String) : List String := (nameChars path.toList).map String.ofList

theorem dropIdle_prefix (names : List (List Char)) : dropIdle names <+: names := by
  have h := List.dropWhile_suffix isIdle (l := names.reverse)
  simpa [dropIdle] using List.reverse_prefix.mpr h

theorem isIdle_getLast_dropIdle {names : List (List Char)} (h : dropIdle names ≠ []) :
    isIdle ((dropIdle names).getLast h) = false := by
  unfold dropIdle at h ⊢
  rw [List.getLast_reverse]
  have hd : names.reverse.dropWhile isIdle ≠ [] := by simpa using h
  simpa using List.head_dropWhile_not isIdle (l := names.reverse) hd

theorem filter_dropIdle (names : List (List Char)) :
    (dropIdle names).filter (!isIdle ·) = names.filter (!isIdle ·) := by
  have idle : (names.reverse.takeWhile isIdle).filter (!isIdle ·) = [] := by
    rw [List.filter_eq_nil_iff]
    intro name hn
    simp [List.all_eq_true.mp List.all_takeWhile name hn]
  have cut := List.takeWhile_append_dropWhile (p := isIdle) (l := names.reverse)
  have kept := congrArg (List.filter (!isIdle ·)) cut
  rw [List.filter_append, idle, List.nil_append, List.filter_reverse] at kept
  rw [dropIdle, List.filter_reverse, kept, List.reverse_reverse]

/-- What is left ends with a name that leads somewhere. -/
theorem filter_eq_concat {names : List (List Char)} (h : dropIdle names ≠ []) :
    ∃ last, names.filter (!isIdle ·) = (dropIdle names).dropLast.filter (!isIdle ·) ++ [last] := by
  have last := isIdle_getLast_dropIdle h
  refine ⟨(dropIdle names).getLast h, ?_⟩
  calc names.filter (!isIdle ·)
      = (dropIdle names).filter (!isIdle ·) := (filter_dropIdle names).symm
    _ = ((dropIdle names).dropLast ++ [(dropIdle names).getLast h]).filter (!isIdle ·) := by
        rw [List.dropLast_concat_getLast]
    _ = _ := by simp [List.filter_append, last]

theorem dropIdle_eq_nil_iff {names : List (List Char)} :
    dropIdle names = [] ↔ names.filter (!isIdle ·) = [] := by
  constructor
  · intro idle
    rw [← filter_dropIdle, idle, List.filter_nil]
  · intro idle
    apply Classical.byContradiction
    intro left_over
    obtain ⟨last, kept⟩ := filter_eq_concat left_over
    exact List.concat_ne_nil _ _ (kept.symm.trans idle)

/-- The pieces of a path that has a parent, and what its parent keeps of them. -/
theorem parentChars_cases {path parent : List Char} (h : parentChars path = some parent) :
    ∃ first rest, path.splitOn '/' = first :: rest ∧
      (first ≠ [] ∧ rest.filter (!isIdle ·) = [] ∧ parent = [] ∨
        ∃ above last, above <+: rest ∧
          rest.filter (!isIdle ·) = above.filter (!isIdle ·) ++ [last] ∧
          parent = if first = [] ∧ dropIdle above = [] then ['/']
            else ['/'].intercalate (first :: dropIdle above)) := by
  unfold parentChars at h
  split at h
  · cases h
  next first rest pieces =>
  refine ⟨first, rest, pieces, ?_⟩
  split at h
  · next idle =>
    split at h
    · cases h
    · next named =>
      cases h
      exact .inl ⟨named, dropIdle_eq_nil_iff.mp idle, rfl⟩
  · next left_over =>
    obtain ⟨last, kept⟩ := filter_eq_concat left_over
    have before : (dropIdle rest).dropLast <+: dropIdle rest := List.dropLast_prefix _
    refine .inr ⟨_, last, before.trans ?_, kept, ?_⟩
    · exact dropIdle_prefix rest
    dsimp only at h
    split at h
    · next top =>
      cases h
      rw [if_pos top]
    · next below =>
      cases h
      rw [if_neg below]

theorem nameChars_of_splitOn {path first : List Char} {rest : List (List Char)}
    (h : path.splitOn '/' = first :: rest) :
    nameChars path = (if first = [] then [] else [first]) ++ rest.filter (!isIdle ·) := by
  rw [nameChars, h]

theorem slash_not_mem_of_mem_splitOn {path name : List Char} (h : name ∈ path.splitOn '/') :
    '/' ∉ name := by
  rw [List.splitOn_eq_splitOnP] at h
  intro slash
  have := Text.not_of_mem_splitOnP h '/' slash
  simp at this

/-- Only a path without a name has no parent. -/
theorem parentChars_eq_none_iff {path : List Char} :
    parentChars path = none ↔ nameChars path = [] := by
  unfold parentChars nameChars
  split
  · simp
  next first rest _ =>
  split
  · next idle =>
    rw [dropIdle_eq_nil_iff.mp idle]
    simp
  · next left_over =>
    obtain ⟨last, kept⟩ := filter_eq_concat left_over
    rw [kept]
    dsimp only
    split <;> simp

/-- A parent has the names of the path but the last. -/
theorem nameChars_of_parentChars {path parent : List Char} (h : parentChars path = some parent) :
    ∃ last, nameChars path = nameChars parent ++ [last] := by
  obtain ⟨first, rest, pieces, ⟨named, idle, rfl⟩ | ⟨above, last, before, kept, rfl⟩⟩ :=
    parentChars_cases h
  · refine ⟨first, ?_⟩
    rw [nameChars_of_splitOn pieces, idle, if_neg named]
    rfl
  · refine ⟨last, ?_⟩
    rw [nameChars_of_splitOn pieces, kept, ← List.append_assoc, ← filter_dropIdle above]
    congr 1
    symm
    split
    · next top =>
      rw [top.1, top.2]
      rfl
    · have among : dropIdle above <+: rest := by
        apply List.IsPrefix.trans ?_ before
        exact dropIdle_prefix above
      have apart : ∀ name ∈ first :: dropIdle above, '/' ∉ name := by
        intro name hn
        have piece : name ∈ path.splitOn '/' := by
          rw [pieces]
          exact List.cons_subset_cons first among.subset hn
        exact slash_not_mem_of_mem_splitOn piece
      exact nameChars_of_splitOn (List.splitOn_intercalate '/' apart (List.cons_ne_nil _ _))

theorem prefix_intercalate {sep : List Char} {first : List Char} {above rest : List (List Char)}
    (h : above <+: rest) : sep.intercalate (first :: above) <+: sep.intercalate (first :: rest) := by
  obtain ⟨below, rfl⟩ := h
  induction above generalizing first with
  | nil =>
    cases below with
    | nil => exact List.prefix_rfl
    | cons name below =>
      rw [List.intercalate_singleton, List.nil_append, List.intercalate_cons_cons, List.append_assoc]
      exact List.prefix_append first _
  | cons name above ih =>
    rw [List.cons_append, List.intercalate_cons_cons, List.intercalate_cons_cons]
    exact List.prefix_append_right_inj _ |>.mpr ih

/-- Going to the parent cuts a path off. -/
theorem prefix_of_parentChars {path parent : List Char} (h : parentChars path = some parent) :
    parent <+: path := by
  obtain ⟨first, rest, pieces, ⟨_, _, rfl⟩ | ⟨above, last, before, kept, rfl⟩⟩ :=
    parentChars_cases h
  · exact List.nil_prefix
  have whole : ['/'].intercalate (path.splitOn '/') = path := List.intercalate_splitOn '/'
  rw [← whole, pieces]
  split
  · next top =>
    cases rest with
    | nil => simp at kept
    | cons name rest =>
      rw [top.1, List.intercalate_cons_cons]
      exact List.prefix_append ['/'] _
  · apply prefix_intercalate
    apply List.IsPrefix.trans ?_ before
    exact dropIdle_prefix above

theorem length_parentChars {path parent : List Char} (h : parentChars path = some parent) :
    parent.length < path.length := by
  have cut := prefix_of_parentChars h
  apply Nat.lt_of_le_of_ne cut.length_le
  intro same
  obtain ⟨last, names⟩ := nameChars_of_parentChars h
  rw [cut.eq_of_length same] at names
  have longer := congrArg List.length names
  rw [List.length_append, List.length_singleton] at longer
  omega

theorem length_parent? {path parent : String} (h : parent? path = some parent) :
    parent.length < path.length := by
  obtain ⟨cs, hc, rfl⟩ := Option.map_eq_some_iff.mp h
  simpa [← String.length_toList] using length_parentChars hc

end PixelScript.Path
