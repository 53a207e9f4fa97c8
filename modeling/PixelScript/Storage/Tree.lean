import PixelScript.Path.Ancestors
import PixelScript.Storage.Frame

namespace PixelScript.Storage

/-- The names that lead on, as a walk takes them. -/
def leading (names : List String) : List String := names.filter (!Path.isIdle ·.toList)

/-- An absolute path that goes down all its way, through directories that are there. -/
structure LeadsDown (s : Storage) (dir : String) : Prop where
  absolute : Path.IsAbsolute dir
  down : ".." ∉ Path.names dir
  directory : ∀ above, above <+: Path.names dir → s.node? above = some .directory
  short : ∀ name ∈ Path.names dir, name.utf8ByteSize ≤ 255

/-- A name that leads from any directory to what is there by that name. -/
structure IsFileName (name : String) : Prop where
  apart : '/' ∉ name.toList
  leads : Path.isIdle name.toList = false
  down : name ≠ ".."
  short : name.utf8ByteSize ≤ 255

theorem leading_cons (name : String) (names : List String) :
    leading (name :: names) = leading [name] ++ leading names :=
  List.filter_append [name] names

theorem leading_singleton (name : String) : leading [name] = [] ∨ leading [name] = [name] := by
  unfold leading
  cases h : Path.isIdle name.toList <;> simp [h]

theorem leading_of_isFileName {name : String} (h : IsFileName name) : leading [name] = [name] := by
  simp [leading, h.leads]

/-- Any name but two dots leads down, or stays. -/
theorem enter_eq_ok_iff {l k : Location} {name : String} (down : name ≠ "..") :
    enter l name = .ok k ↔ k = l ++ leading [name] ∧ ∀ n ∈ leading [name], n.utf8ByteSize ≤ 255 := by
  have idle : (name = "" ∨ name = ".") ↔ Path.isIdle name.toList = true := by
    rw [Path.isIdle, Bool.or_eq_true, decide_eq_true_iff, decide_eq_true_iff]
    exact or_congr String.toList_eq_nil_iff.symm String.toList_inj.symm
  unfold enter
  by_cases stays : name = "" ∨ name = "."
  · simp [leading, idle.mp stays, stays, eq_comm]
  · have leads : Path.isIdle name.toList = false := Bool.eq_false_iff.mpr (mt idle.mpr stays)
    by_cases long : 255 < name.utf8ByteSize
    · simp [leading, leads, stays, down, long]
    · simp [leading, leads, stays, down, long, eq_comm]
      omega

/-- A walk that does not go up passes all the directories before its end. -/
theorem walk_down {s : Storage} {l k : Location} {names : List String} (down : ".." ∉ names)
    (h : s.walk l names = .ok k) :
    k = l ++ leading names ∧ (∀ n ∈ leading names, n.utf8ByteSize ≤ 255) ∧
      ∀ above, above <+: leading names → above ≠ leading names →
        s.node? (l ++ above) = some .directory := by
  induction names generalizing l with
  | nil =>
    cases h
    refine ⟨(List.append_nil _).symm, ?_, ?_⟩
    · intro n hn
      cases hn
    · intro above before apart
      exact absurd (List.prefix_nil.mp before) apart
  | cons name names ih =>
    obtain ⟨first_down, rest_down⟩ := not_or.mp (mt List.mem_cons.mpr down)
    obtain ⟨directory, m, step, rest⟩ := walk_cons_eq_ok_iff.mp h
    obtain ⟨rfl, first_short⟩ := (enter_eq_ok_iff (Ne.symm first_down)).mp step
    obtain ⟨rfl, rest_short, passed⟩ := ih rest_down rest
    rw [leading_cons name names]
    refine ⟨List.append_assoc _ _ _, List.forall_mem_append.mpr ⟨first_short, rest_short⟩, ?_⟩
    intro above before apart
    obtain idle | leads := leading_singleton name
    · rw [idle] at before apart passed
      rw [List.append_nil] at passed
      exact passed above before apart
    · rw [leads] at before apart passed
      obtain rfl | ⟨below, rfl, among⟩ := List.prefix_cons_iff.mp before
      · rw [List.append_nil]
        exact directory
      · have short_of : below ≠ leading names := by
          rintro rfl
          exact apart rfl
        rw [← List.singleton_append, ← List.append_assoc]
        exact passed below among short_of

/-- Where all directories are there, a walk that does not go up reaches the last of them. -/
theorem walk_of_directories {s : Storage} {l : Location} {names : List String}
    (down : ".." ∉ names) (short : ∀ n ∈ leading names, n.utf8ByteSize ≤ 255)
    (passed : ∀ above, above <+: leading names → s.node? (l ++ above) = some .directory) :
    s.walk l names = .ok (l ++ leading names) := by
  induction names generalizing l with
  | nil => rw [walk, leading, List.filter_nil, List.append_nil]
  | cons name names ih =>
    obtain ⟨first_down, rest_down⟩ := not_or.mp (mt List.mem_cons.mpr down)
    rw [leading_cons name names] at short passed ⊢
    obtain ⟨first_short, rest_short⟩ := List.forall_mem_append.mp short
    have start : s.node? l = some .directory := by
      simpa using passed [] List.nil_prefix
    have step := (enter_eq_ok_iff (l := l) (Ne.symm first_down)).mpr ⟨rfl, first_short⟩
    refine walk_cons_eq_ok_iff.mpr ⟨start, _, step, ?_⟩
    rw [← List.append_assoc]
    apply ih rest_down rest_short
    intro above before
    rw [List.append_assoc]
    exact passed _ ((List.prefix_append_right_inj _).mpr before)

/-- The names on an absolute path are those that its walk goes by. -/
theorem leading_segments {path : String} (h : Path.IsAbsolute path) :
    leading (segments path) = Path.names path := by
  obtain ⟨cs, front⟩ := List.head?_eq_some_iff.mp h
  have pieces : path.toList.splitOn '/' = [] :: cs.splitOn '/' := by
    rw [front]
    exact List.splitOn_append_cons_self [] cs
  have same : (fun name => !Path.isIdle name.toList) ∘ String.ofList = (!Path.isIdle ·) := by
    funext name
    simp
  rw [leading, segments, Path.names, Path.nameChars_of_splitOn pieces, pieces, List.filter_map, same]
  rfl

theorem up_not_mem_segments {path : String} (h : Path.IsAbsolute path)
    (down : ".." ∉ Path.names path) : ".." ∉ segments path := by
  intro up
  rw [← leading_segments h] at down
  exact down (List.mem_filter.mpr ⟨up, by decide +kernel⟩)

variable {s : Storage}

theorem origin_of_isAbsolute {path : String} (h : Path.IsAbsolute path) : s.origin path = [] :=
  if_pos h

/-- An absolute path that does not go up leads just where its names say. -/
theorem leadsDown_of_find {path : String} {l : Location} (absolute : Path.IsAbsolute path)
    (down : ".." ∉ Path.names path) (h : s.find path = .ok (l, .directory)) :
    l = Path.names path ∧ s.LeadsDown path := by
  obtain ⟨_, way, there⟩ := find_eq_ok_iff.mp h
  rw [origin_of_isAbsolute absolute] at way
  obtain ⟨same, short, passed⟩ := walk_down (up_not_mem_segments absolute down) way
  rw [List.nil_append, leading_segments absolute] at same
  rw [leading_segments absolute] at short passed
  refine ⟨same, absolute, down, ?_, short⟩
  intro above before
  by_cases last : above = Path.names path
  · rw [last, ← same]
    exact there
  · exact passed above before last

theorem LeadsDown.cut {path dir : String} {kept : Nat} (h : s.LeadsDown path)
    (cut : Path.IsCut dir path kept) : s.LeadsDown dir := by
  have before := cut.names_isPrefix
  refine ⟨cut.absolute.mpr h.absolute, fun up => h.down (before.subset up), ?_, ?_⟩
  · intro above further
    exact h.directory above (further.trans before)
  · intro name among
    exact h.short name (before.subset among)

/-- The last step of a walk to a file in a directory is its name. -/
theorem exists_segments_join {dir name : String} (absolute : Path.IsAbsolute dir)
    (file : IsFileName name) :
    ∃ way, segments (Path.join dir name) = way ++ [name] ∧ leading way = Path.names dir := by
  have some_dir : dir ≠ "" := by
    rintro rfl
    cases absolute
  obtain ⟨above, parts, _⟩ := Path.exists_join some_dir name
  have pieces : segments (Path.join dir name) = (above.splitOn '/').map String.ofList ++ [name] := by
    rw [segments, parts, List.splitOn_append_cons_self, List.splitOn_eq_singleton file.apart]
    simp
  have leads := leading_segments ((Path.isAbsolute_join dir file.apart).mpr absolute)
  rw [pieces, Path.names_join dir file.apart file.leads, leading, List.filter_append] at leads
  change leading _ ++ leading [name] = _ at leads
  rw [leading_of_isFileName file] at leads
  exact ⟨_, pieces, List.append_cancel_right leads⟩

section Join

variable {dir name : String} (h : s.LeadsDown dir) (file : IsFileName name)
  (asked : refused (Path.join dir name) = none)

include h file

theorem walk_join_iff {k : Location} :
    s.walk (s.origin (Path.join dir name)) (segments (Path.join dir name)) = .ok k ↔
      k = Path.names dir ++ [name] := by
  have whole := (Path.isAbsolute_join dir file.apart).mpr h.absolute
  obtain ⟨way, pieces, leads⟩ := exists_segments_join h.absolute file
  have down : ".." ∉ way := by
    intro up
    apply h.down
    rw [← leads]
    exact List.mem_filter.mpr ⟨up, by decide +kernel⟩
  have passed (above : Location) (before : above <+: leading way) :
      s.node? ([] ++ above) = some .directory := h.directory above (leads ▸ before)
  have reached : s.walk [] way = .ok (Path.names dir) := by
    rw [walk_of_directories down (leads ▸ h.short) passed, leads]
    rfl
  have last : leading [name] = [name] := leading_of_isFileName file
  rw [origin_of_isAbsolute whole, pieces, walk_append_eq_ok_iff]
  constructor
  · rintro ⟨m, there, step⟩
    cases reached.symm.trans there
    obtain ⟨_, m, entered, ended⟩ := walk_cons_eq_ok_iff.mp step
    obtain ⟨rfl, _⟩ := (enter_eq_ok_iff file.down).mp entered
    cases ended
    rw [last]
  · rintro rfl
    have here := h.directory _ List.prefix_rfl
    have entered : enter (Path.names dir) name = .ok (Path.names dir ++ [name]) := by
      rw [enter_eq_ok_iff file.down, last]
      exact ⟨rfl, List.forall_mem_singleton.mpr file.short⟩
    exact ⟨_, reached, walk_cons_eq_ok_iff.mpr ⟨here, _, entered, rfl⟩⟩

include asked

/-- What is in a directory is found by its name. -/
theorem find_join_iff {k : Location} {node : Node} :
    s.find (Path.join dir name) = .ok (k, node) ↔
      k = Path.names dir ++ [name] ∧ s.node? k = some node := by
  rw [find_eq_ok_iff, walk_join_iff h file]
  exact and_iff_right asked

theorem contains_join_eq_false_iff :
    s.contains (Path.join dir name) = false ↔ s.node? (Path.names dir ++ [name]) = none := by
  rw [contains_eq_false_iff, Option.eq_none_iff_forall_ne_some]
  constructor
  · intro unfound node there
    exact unfound (_, node) ((find_join_iff h file asked).mpr ⟨rfl, there⟩)
  · rintro missing ⟨k, node⟩ found
    obtain ⟨rfl, there⟩ := (find_join_iff h file asked).mp found
    exact missing node there

end Join

theorem refused_eq_none_iff {path : String} :
    refused path = none ↔ '\x00' ∉ path.toList ∧ path ≠ "" ∧ path.utf8ByteSize < 4096 := by
  unfold refused
  by_cases nul : '\x00' ∈ path.toList
  · simp [nul]
  · by_cases unnamed : path = ""
    · simp [unnamed]
    · simp [nul, unnamed]

/-- A path that is asked about can be cut off and have a name put to it, if there is room. -/
theorem refused_join {path dir name : String} (h : refused path = none)
    (cut : dir.toList <+: path.toList) (apart : '\x00' ∉ name.toList) (named : name ≠ "")
    (room : path.utf8ByteSize + 1 + name.utf8ByteSize < 4096) :
    refused (Path.join dir name) = none := by
  obtain ⟨clean, _, _⟩ := refused_eq_none_iff.mp h
  obtain ⟨rest, parts⟩ := cut
  have whole : path = dir ++ String.ofList rest := by
    rw [← String.toList_inj, String.toList_append, String.toList_ofList, parts]
  rw [← parts, List.mem_append, not_or] at clean
  rw [whole, String.utf8ByteSize_append] at room
  rw [refused_eq_none_iff]
  unfold Path.join
  split
  · refine ⟨?_, ?_, ?_⟩
    · simp [clean.1, apart]
    · simp [named]
    · rw [String.utf8ByteSize_append]
      omega
  · have slash : "/".utf8ByteSize = 1 := rfl
    refine ⟨?_, ?_, ?_⟩
    · simp [clean.1, apart]
    · simp
    · rw [String.utf8ByteSize_append, String.utf8ByteSize_append, slash]
      omega

end PixelScript.Storage
