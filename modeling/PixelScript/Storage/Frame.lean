import PixelScript.Fallible
import PixelScript.Storage
import PixelScript.Text.Utf8

namespace PixelScript.Storage

/-- Two file systems that differ at most in the node at one location. -/
structure SameBut (s t : Storage) (l : Location) : Prop where
  cwd : t.cwd = s.cwd
  node? : ∀ k, k ≠ l → t.node? k = s.node? k

theorem SameBut.refl (s : Storage) (l : Location) : s.SameBut s l :=
  ⟨rfl, fun _ _ => rfl⟩

theorem SameBut.trans {s t u : Storage} {l : Location} (h : s.SameBut t l) (h' : t.SameBut u l) :
    s.SameBut u l := by
  refine ⟨h'.cwd.trans h.cwd, ?_⟩
  intro k hk
  exact (h'.node? k hk).trans (h.node? k hk)

theorem SameBut.symm {s t : Storage} {l : Location} (h : s.SameBut t l) : t.SameBut s l :=
  ⟨h.cwd.symm, fun k hk => (h.node? k hk).symm⟩

theorem sameBut_put (s : Storage) (l : Location) (node : Node) : s.SameBut (s.put l node) l :=
  ⟨rfl, fun _ hk => node?_put_of_ne s hk node⟩

theorem ne_root_of_file {s : Storage} {l : Location} {content : ByteArray}
    (h : s.node? l = some (.file content)) : l ≠ [] := by
  intro hl
  rw [hl] at h
  cases h

/-- Where a name leads from a directory. -/
def enter (l : Location) (name : String) : Except IoError Location :=
  if name = "" ∨ name = "." then .ok l
  else if name = ".." then .ok l.dropLast
  else if 255 < name.utf8ByteSize then .error .nameTooLong
  else .ok (l ++ [name])

/-- A walk asks about a place only whether it is a directory. -/
theorem walk_cons_eq_ok_iff {s : Storage} {l k : Location} {name : String} {names : List String} :
    s.walk l (name :: names) = .ok k ↔
      s.node? l = some .directory ∧ ∃ m, enter l name = .ok m ∧ s.walk m names = .ok k := by
  rw [walk]
  cases s.node? l with
  | none => simp
  | some node =>
    cases node with
    | directory =>
      unfold enter
      by_cases here : name = "" ∨ name = "."
      · simp [here]
      by_cases up : name = ".."
      · simp [up]
      by_cases long : 255 < name.utf8ByteSize
      · simp [here, up, long]
      · simp [here, up, long]
    | file content => simp
    | sink => simp
    | full => simp

theorem walk_append_eq_ok_iff {s : Storage} {l k : Location} {as bs : List String} :
    s.walk l (as ++ bs) = .ok k ↔ ∃ m, s.walk l as = .ok m ∧ s.walk m bs = .ok k := by
  induction as generalizing l with
  | nil => simp [walk]
  | cons name as ih =>
    simp only [List.cons_append, walk_cons_eq_ok_iff, ih]
    constructor
    · rintro ⟨directory, m, first, n, rest, last⟩
      exact ⟨n, ⟨directory, m, first, rest⟩, last⟩
    · rintro ⟨n, ⟨directory, m, first, rest⟩, last⟩
      exact ⟨directory, m, first, n, rest, last⟩

/-- A walk to a directory ends where the walk of its names does. -/
theorem walk_of_directory {s : Storage} {l k : Location} {names : List String}
    (h : s.walk l (names ++ [""]) = .ok k) : s.walk l names = .ok k := by
  obtain ⟨m, way, stay⟩ := walk_append_eq_ok_iff.mp h
  obtain ⟨_, n, here, ended⟩ := walk_cons_eq_ok_iff.mp stay
  cases here
  cases ended
  exact way

/-- What is opened to be written is where its path leads. It is a device, which stays as it is, or a
file, which is empty from then on. -/
theorem of_create {s t : Storage} {path : String} {l : Location}
    (h : s.create path = .ok (t, l)) :
    s.walk (s.origin path) (segments path) = .ok l ∧ s.node? l ≠ some .directory ∧
      (t = s ∧ (s.node? l = some .sink ∨ s.node? l = some .full) ∨
        t = s.put l (.file .empty)) := by
  unfold create at h
  dsimp only at h
  split at h
  · cases h
  · split at h
    · next name last =>
      obtain ⟨parent, above, h⟩ := bind_eq_ok_iff.mp h
      split at h
      · cases h
      · next plain =>
        obtain ⟨k, step, h⟩ := bind_eq_ok_iff.mp h
        have way : s.walk (s.origin path) (segments path) = .ok k := by
          have trimmed := Classical.not_not.mp (not_or.mp plain).1
          rw [trimmed] at last above
          obtain ⟨names, parts⟩ := List.getLast?_eq_some_iff.mp last
          rw [parts, List.dropLast_concat] at above
          rw [parts]
          exact walk_append_eq_ok_iff.mpr ⟨parent, walk_of_directory above, step⟩
        split at h
        · cases h
        · next node =>
          cases h
          exact ⟨way, by simp [node], .inl ⟨rfl, .inl node⟩⟩
        · next node =>
          cases h
          exact ⟨way, by simp [node], .inl ⟨rfl, .inr node⟩⟩
        · next node =>
          cases h
          exact ⟨way, by simp [node], .inr rfl⟩
        · next node =>
          cases h
          exact ⟨way, by simp [node], .inr rfl⟩
    · cases h

/-- Opening a file to write it changes that file at most, and it was no directory. -/
theorem sameBut_of_create {s t : Storage} {path : String} {l : Location}
    (h : s.create path = .ok (t, l)) : s.SameBut t l ∧ s.node? l ≠ some .directory := by
  obtain ⟨_, writable, opened⟩ := of_create h
  refine ⟨?_, writable⟩
  obtain ⟨same, _⟩ | emptied := opened
  · rw [same]
    exact .refl s l
  · rw [emptied]
    exact sameBut_put s l _

/-- Nothing can be read from what has just been opened to be written. -/
theorem node?_of_create {s t : Storage} {path : String} {l : Location}
    (h : s.create path = .ok (t, l)) :
    t.node? l = some (.file .empty) ∨ t.node? l = some .sink ∨ t.node? l = some .full := by
  obtain ⟨_, writable, opened⟩ := of_create h
  obtain ⟨same, device⟩ | emptied := opened
  · rw [same]
    exact .inr device
  · have below : l ≠ [] := by
      intro hl
      rw [hl] at writable
      exact writable rfl
    rw [emptied]
    exact .inl (node?_put_self s below _)

theorem contains_eq_false_iff {s : Storage} {path : String} :
    s.contains path = false ↔ ∀ found, s.find path ≠ .ok found := by
  unfold contains
  cases s.find path with
  | error e => simp [Except.toOption]
  | ok found => simp [Except.toOption]

section Frame

variable {s t : Storage} {l : Location}

theorem walk_of_sameBut (h : s.SameBut t l) (hl : s.node? l ≠ some .directory)
    {k m : Location} {names : List String} (hw : s.walk k names = .ok m) :
    t.walk k names = .ok m := by
  induction names generalizing k with
  | nil => exact hw
  | cons name names ih =>
    obtain ⟨directory, n, first, rest⟩ := walk_cons_eq_ok_iff.mp hw
    have apart : k ≠ l := by
      intro hk
      exact hl (hk ▸ directory)
    exact walk_cons_eq_ok_iff.mpr ⟨(h.node? k apart).trans directory, n, first, ih rest⟩

theorem find_eq_ok_iff {path : String} {k : Location} {node : Node} :
    s.find path = .ok (k, node) ↔
      refused path = none ∧ s.walk (s.origin path) (segments path) = .ok k ∧
        s.node? k = some node := by
  unfold find
  cases refused path with
  | some e => simp [bind, Except.bind]
  | none =>
    dsimp only
    constructor
    · intro h
      obtain ⟨m, way, h⟩ := bind_eq_ok_iff.mp h
      split at h
      · next found =>
        cases h
        exact ⟨rfl, way, found⟩
      · cases h
    · intro ⟨_, way, found⟩
      exact bind_eq_ok_iff.mpr ⟨k, way, by rw [found]⟩

/-- What is opened to be written is what was found there, if anything. -/
theorem eq_of_create_of_find {path : String} {k : Location} {node : Node}
    (h : s.create path = .ok (t, l)) (hf : s.find path = .ok (k, node)) : k = l := by
  obtain ⟨way, _⟩ := of_create h
  obtain ⟨_, found, _⟩ := find_eq_ok_iff.mp hf
  exact Except.ok.inj (found.symm.trans way)

/-- A path leads to the same place as before, whatever is there now. -/
theorem find_of_node? (h : s.SameBut t l) (hl : s.node? l ≠ some .directory) {path : String}
    {k : Location} {before after : Node} (hf : s.find path = .ok (k, before))
    (ha : t.node? k = some after) : t.find path = .ok (k, after) := by
  obtain ⟨asked, way, _⟩ := find_eq_ok_iff.mp hf
  refine find_eq_ok_iff.mpr ⟨asked, ?_, ha⟩
  have same : t.origin path = s.origin path := by rw [origin, origin, h.cwd]
  rw [same]
  exact walk_of_sameBut h hl way

/-- A file other than the one written is found as before. -/
theorem find_of_sameBut (h : s.SameBut t l) (hl : s.node? l ≠ some .directory) {path : String}
    {k : Location} {node : Node} (hk : k ≠ l) (hf : s.find path = .ok (k, node)) :
    t.find path = .ok (k, node) := by
  obtain ⟨_, _, found⟩ := find_eq_ok_iff.mp hf
  apply find_of_node? h hl hf
  rw [h.node? k hk]
  exact found

theorem read_of_sameBut (h : s.SameBut t l) (hl : s.node? l ≠ some .directory) {path : String}
    {content : ByteArray} (apart : ∀ node, s.find path ≠ .ok (l, node))
    (hr : s.read path = .ok content) : t.read path = .ok content := by
  unfold read at hr ⊢
  obtain ⟨⟨k, node⟩, found, hr⟩ := bind_eq_ok_iff.mp hr
  have other : k ≠ l := by
    intro hk
    exact apart node (hk ▸ found)
  exact bind_eq_ok_iff.mpr ⟨(k, node), find_of_sameBut h hl other found, hr⟩

end Frame

theorem contains_of_find {s : Storage} {path : String} {found : Location × Node}
    (h : s.find path = .ok found) : s.contains path = true := by
  rw [contains, h]
  rfl

theorem contains_of_read {s : Storage} {path : String} {content : ByteArray}
    (h : s.read path = .ok content) : s.contains path = true := by
  unfold read at h
  obtain ⟨found, hf, _⟩ := bind_eq_ok_iff.mp h
  exact contains_of_find hf

theorem readText_eq_ok_iff {s : Storage} {path text : String} :
    s.readText path = .ok text ↔ s.read path = .ok text.toUTF8 := by
  unfold readText
  rw [bind_eq_ok_iff]
  constructor
  · intro ⟨content, hr, h⟩
    split at h
    · next decoded =>
      cases h
      rw [hr, Text.fromUTF8?_eq_some_iff.mp decoded]
    · cases h
  · intro hr
    refine ⟨_, hr, ?_⟩
    rw [Text.fromUTF8?_eq_some_iff.mpr rfl]

/-- A file that has just been opened to be written is found as empty. -/
theorem readText_of_create {s t : Storage} {path : String} {l : Location}
    (h : s.create path = .ok (t, l)) {other : String} {node : Node}
    (hf : s.find other = .ok (l, node)) : t.readText other = .ok "" := by
  obtain ⟨frame, writable⟩ := sameBut_of_create h
  have reopened (after : Node) (ha : t.node? l = some after) : t.find other = .ok (l, after) :=
    find_of_node? frame writable hf ha
  rw [readText_eq_ok_iff, read]
  obtain emptied | sink | full := node?_of_create h
  · rw [reopened _ emptied]
    rfl
  · rw [reopened _ sink]
    rfl
  · rw [reopened _ full]
    rfl

/-- Apart from what has just been opened to be written, paths find what they did before. -/
theorem find_of_create_iff {s t : Storage} {path other : String} {l k : Location} {node : Node}
    (h : s.create path = .ok (t, l)) (hk : k ≠ l) :
    t.find other = .ok (k, node) ↔ s.find other = .ok (k, node) := by
  obtain ⟨frame, writable⟩ := sameBut_of_create h
  have plain : t.node? l ≠ some .directory := by
    intro directory
    have opened := node?_of_create h
    rw [directory] at opened
    simp at opened
  exact ⟨find_of_sameBut frame.symm plain hk, find_of_sameBut frame writable hk⟩

/-- What leads elsewhere after a file is opened to be written did so before. -/
theorem ne_of_create_of_find {s t : Storage} {path other : String} {l k : Location} {node : Node}
    (h : s.create path = .ok (t, l)) (apart : ∀ node, t.find other ≠ .ok (l, node))
    (hf : s.find other = .ok (k, node)) : k ≠ l := by
  rintro rfl
  obtain ⟨frame, writable⟩ := sameBut_of_create h
  obtain emptied | sink | full := node?_of_create h
  · exact apart _ (find_of_node? frame writable hf emptied)
  · exact apart _ (find_of_node? frame writable hf sink)
  · exact apart _ (find_of_node? frame writable hf full)

theorem sameBut_of_append {s t : Storage} {l : Location} {data : ByteArray}
    (h : s.append l data = .ok t) : s.SameBut t l := by
  unfold append at h
  split at h
  · cases h
  · cases h
  · cases h
    exact sameBut_put s l _
  · cases h
    exact .refl s l
  · cases h

theorem append_of_file {s : Storage} {l : Location} {content : ByteArray}
    (h : s.node? l = some (.file content)) (data : ByteArray) :
    s.append l data = .ok (s.put l (.file (content ++ data))) := by
  rw [append, h]

end PixelScript.Storage
