import PixelScript.Settings.Nearest
import PixelScript.Storage.Tree

namespace PixelScript.Settings

open PixelScript.Path

theorem isFileName_fileName : Storage.IsFileName fileName :=
  ⟨by decide +kernel, by decide +kernel, by decide, by decide⟩

/-- The search goes from the start to its parent and on, up to the root directory or the empty path,
and finds the settings file of the first directory on the way that has one. -/
theorem nearest_upward (holds : String → Bool) (start : String) :
    let depth := (names start).length
    (∀ dir above, parent? dir = some above →
      above.toList <+: dir.toList ∧ above.length < dir.length) ∧
    (∀ turns, depth < turns → nearestWithin holds turns start = some (nearest holds start)) ∧
    (∀ n ≤ depth, ∃ dir, ancestor? start n = some dir ∧ IsCut dir start (depth - n)) ∧
    (∀ n, depth < n → ancestor? start n = none) ∧
    (∃ top, ancestor? start depth = some top ∧ parent? top = none ∧
      if IsAbsolute start then top = "/" ∨ names start = [] ∧ top = start else top = "") ∧
    (nearest holds start = none ↔
      ∀ n dir, ancestor? start n = some dir → holds (join dir fileName) = false) ∧
    (∀ path, nearest holds start = some path ↔
      ∃ n dir, IsFirst holds start n dir ∧ path = join dir fileName) ∧
    ∀ path, nearest holds start = some path →
      ∃ kept ≤ depth, names path = (names start).take kept ++ [fileName] ∧
        (IsAbsolute path ↔ IsAbsolute start) ∧ holds path = true ∧
        ∀ more ≤ depth, kept < more → ∃ dir, ancestor? start (depth - more) = some dir ∧
          IsCut dir start more ∧ holds (join dir fileName) = false := by
  intro depth
  refine ⟨?_, fun _ enough => nearestWithin_eq enough, fun _ some_left => ancestor?_isCut some_left,
    fun _ beyond => ancestor?_eq_none beyond, ancestor?_top start, nearest_eq_none_iff,
    fun _ => nearest_eq_some_iff, ?_⟩
  · intro dir above up
    exact ⟨prefix_of_parent? up, length_parent? up⟩
  · intro path found
    obtain ⟨n, dir, first, rfl⟩ := nearest_eq_some_iff.mp found
    obtain ⟨upto, cut⟩ := isCut_of_ancestor? first.reached
    refine ⟨depth - n, Nat.sub_le depth n, ?_, ?_, first.found, ?_⟩
    · rw [names_join dir isFileName_fileName.apart isFileName_fileName.leads, cut.names]
    · exact (isAbsolute_join dir isFileName_fileName.apart).trans cut.absolute
    · intro more among nearer
      obtain ⟨below, passed, left⟩ := exists_ancestor? among
      exact ⟨below, passed, left, first.before (depth - more) (by omega) below passed⟩

/-- From a path that ends in slashes and has a dot in it, past the directory itself. The root
directory has a settings file as well. -/
theorem nearest_upward_past_start :
    let holds (path : String) := path = "/a/bitmap.toml" ∨ path = "/bitmap.toml"
    let found := some "/a/bitmap.toml"
    nearest (fun path => holds path) "/a/./b//" = found ∧
      nearestWithin (fun path => holds path) 3 "/a/./b//" = some found ∧
      (∃ top, ancestor? "/a/./b//" 2 = some top ∧ IsCut top "/a/./b//" 0) ∧
      ancestor? "/a/./b//" 3 = none := by
  intro holds found
  obtain ⟨_, ends, on_way, above_all, _, _, at_first, _⟩ :=
    nearest_upward (fun path => holds path) "/a/./b//"
  have depth : (names "/a/./b//").length = 2 := by decide +kernel
  have first : IsFirst (fun path => holds path) "/a/./b//" 1 "/a" := by
    refine ⟨by decide +kernel, by decide +kernel, ?_⟩
    intro m hm below reached
    obtain rfl := Nat.lt_one_iff.mp hm
    cases reached
    decide +kernel
  have nearest_is : nearest (fun path => holds path) "/a/./b//" = found :=
    (at_first _).mpr ⟨1, "/a", first, by decide +kernel⟩
  rw [depth] at ends on_way above_all
  refine ⟨nearest_is, (ends 3 (by decide)).trans (congrArg some nearest_is), ?_, ?_⟩
  · exact on_way 2 (Nat.le_refl 2)
  · exact above_all 3 (by decide)

/-- In a tree of files, below a directory whose path leaves room for the name of a settings file,
this is the settings file of the nearest directory above. -/
theorem nearest_in_tree {files : Storage} {start : String} {l : Location}
    (absolute : IsAbsolute start) (down : ".." ∉ names start)
    (there : files.find start = .ok (l, .directory)) (room : start.utf8ByteSize + 12 < 4096) :
    (nearest files.contains start = none ↔
      ∀ above, above <+: l → files.node? (above ++ [fileName]) = none) ∧
    ∀ path, nearest files.contains start = some path →
      ∃ above node, above <+: l ∧ files.find path = .ok (above ++ [fileName], node) ∧
        ∀ nearer, nearer <+: l → above.length < nearer.length →
          files.node? (nearer ++ [fileName]) = none := by
  obtain ⟨rfl, leads⟩ := Storage.leadsDown_of_find absolute down there
  obtain ⟨asked, _, _⟩ := Storage.find_eq_ok_iff.mp there
  have usable {dir : String} {kept : Nat} (cut : IsCut dir start kept) :
      Storage.refused (join dir fileName) = none :=
    Storage.refused_join asked cut.text (by decide +kernel) (by decide) room
  have absent_iff {dir : String} {kept : Nat} (cut : IsCut dir start kept) :
      files.contains (join dir fileName) = false ↔
        files.node? (names dir ++ [fileName]) = none :=
    Storage.contains_join_eq_false_iff (leads.cut cut) isFileName_fileName (usable cut)
  constructor
  · rw [nearest_eq_none_iff]
    constructor
    · intro without above before
      obtain ⟨dir, reached, cut⟩ := exists_ancestor? before.length_le
      rw [List.prefix_iff_eq_take.mp before, ← cut.names]
      exact (absent_iff cut).mp (without _ dir reached)
    · intro missing n dir reached
      obtain ⟨_, cut⟩ := isCut_of_ancestor? reached
      exact (absent_iff cut).mpr (missing (names dir) cut.names_isPrefix)
  · intro path found
    obtain ⟨n, dir, first, rfl⟩ := nearest_eq_some_iff.mp found
    obtain ⟨upto, cut⟩ := isCut_of_ancestor? first.reached
    have present : files.node? (names dir ++ [fileName]) ≠ none := by
      intro missing
      exact Bool.eq_false_iff.mp ((absent_iff cut).mpr missing) first.found
    obtain ⟨node, present⟩ := Option.ne_none_iff_exists'.mp present
    refine ⟨names dir, node, cut.names_isPrefix, ?_, ?_⟩
    · exact (Storage.find_join_iff (leads.cut cut) isFileName_fileName (usable cut)).mpr
        ⟨rfl, present⟩
    · intro nearer before deeper
      have among := before.length_le
      obtain ⟨below, passed, left⟩ := exists_ancestor? among
      have length := congrArg List.length cut.names
      rw [List.length_take] at length
      rw [List.prefix_iff_eq_take.mp before, ← left.names]
      exact (absent_iff left).mp (first.before _ (by omega) below passed)

-- After a step up in the path, its parent is not above the directory.
example : parent? "/a/.." = some "/a" := by decide +kernel

end PixelScript.Settings
