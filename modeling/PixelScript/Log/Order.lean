import PixelScript.Log
import PixelScript.Log.Formats

namespace PixelScript

open Text

namespace Entry

def isFatal : Entry → Bool
  | fatal _ => true
  | rejected _ => false

@[simp] theorem isFatal_fatal (message : String) : (fatal message).isFatal = true := rfl

@[simp] theorem isFatal_rejected (r : Report) : (rejected r).isFatal = false := rfl

/-- What the entry says, without the number of a line. -/
def message : Entry → String
  | rejected report => report.message
  | fatal message => message

theorem framed_text {e : Entry} (h : '\n' ∉ e.message.toList) : '\n' ∉ e.text.toList := by
  cases e with
  | fatal message => exact h
  | rejected r =>
    have number : '\n' ∉ (toString r.line).toList := (unbroken_toString r.line).spaced.framed
    have parts : r.text.toList =
        "Line ".toList ++ (toString r.line).toList ++ " : ".toList ++ r.message.toList := by
      have text : r.text = "Line " ++ toString r.line ++ " : " ++ r.message := rfl
      simp only [text, String.toList_append]
    rw [text, parts]
    simp only [List.mem_append, not_or]
    exact ⟨⟨⟨by decide, number⟩, by decide⟩, h⟩

/-- No fatal error comes after a report. -/
def FatalsFirst (es : List Entry) : Prop := es.Pairwise fun a b => b.isFatal → a.isFatal

instance (es : List Entry) : Decidable (FatalsFirst es) :=
  inferInstanceAs (Decidable (es.Pairwise _))

/-- The fatal errors among some entries, and then the reports. -/
def sorted (es : List Entry) : List Entry := es.filter isFatal ++ es.filter (!·.isFatal)

theorem sorted_perm (es : List Entry) : (sorted es).Perm es := List.filter_append_perm isFatal es

theorem sorted_cons_fatal (message : String) (es : List Entry) :
    sorted (fatal message :: es) = fatal message :: sorted es := rfl

/-- Reports alone stay where they are. -/
theorem sorted_of_reports {es : List Entry} (h : ∀ e ∈ es, ¬e.isFatal) : sorted es = es := by
  have fatals : es.filter isFatal = [] := List.filter_eq_nil_iff.mpr h
  have reports : es.filter (!·.isFatal) = es := by
    rw [List.filter_eq_self]
    intro e he
    simp [h e he]
  rw [sorted, fatals, reports, List.nil_append]

theorem fatalsFirst_cons_fatal {message : String} {es : List Entry} :
    FatalsFirst (fatal message :: es) ↔ FatalsFirst es := by
  simp [FatalsFirst]

theorem fatalsFirst_cons_rejected {r : Report} {es : List Entry} :
    FatalsFirst (rejected r :: es) ↔ ∀ e ∈ es, ¬e.isFatal := by
  unfold FatalsFirst
  rw [List.pairwise_cons]
  constructor
  · intro h e he fatal
    exact absurd (h.1 e he fatal) (by simp)
  · intro h
    refine ⟨fun e he fatal => absurd fatal (h e he), ?_⟩
    exact List.pairwise_of_forall_mem_list fun a _ b hb fatal => absurd fatal (h b hb)

theorem sorted_of_fatalsFirst {es : List Entry} (h : FatalsFirst es) : sorted es = es := by
  induction es with
  | nil => rfl
  | cons e es ih =>
    cases e with
    | fatal message => rw [sorted_cons_fatal, ih (fatalsFirst_cons_fatal.mp h)]
    | rejected r =>
      apply sorted_of_reports
      rw [List.forall_mem_cons]
      exact ⟨by simp, fatalsFirst_cons_rejected.mp h⟩

/-- A report that stands before a fatal error gives up its place to one. -/
theorem sorted_cons_rejected {e : Entry} {es : List Entry} (he : e ∈ es) (fatal : e.isFatal)
    (r : Report) : ∃ f ∈ es, f.isFatal ∧ ∃ rest, sorted (rejected r :: es) = f :: rest := by
  have first : e ∈ es.filter isFatal := List.mem_filter.mpr ⟨he, fatal⟩
  cases hf : es.filter isFatal with
  | nil =>
    rw [hf] at first
    cases first
  | cons f fs =>
    have mem : f ∈ es.filter isFatal := by
      rw [hf]
      exact List.mem_cons_self
    obtain ⟨hmem, hfatal⟩ := List.mem_filter.mp mem
    refine ⟨f, hmem, hfatal, fs ++ (rejected r :: es).filter (!·.isFatal), ?_⟩
    change es.filter isFatal ++ _ = _
    rw [hf]
    rfl

/-- Which shows unless both read the same. -/
theorem fatalsFirst_of_texts {es : List Entry}
    (apart : ∀ e ∈ es, ∀ f ∈ es, e.isFatal → ¬f.isFatal → e.text ≠ f.text)
    (same : (sorted es).map text = es.map text) : FatalsFirst es := by
  induction es with
  | nil => exact List.Pairwise.nil
  | cons e es ih =>
    cases e with
    | fatal message =>
      have later : ∀ e ∈ es, ∀ f ∈ es, e.isFatal → ¬f.isFatal → e.text ≠ f.text :=
        fun e he f hf => apart e (List.mem_cons_of_mem _ he) f (List.mem_cons_of_mem _ hf)
      rw [sorted_cons_fatal, List.map_cons, List.map_cons] at same
      exact fatalsFirst_cons_fatal.mpr (ih later (List.cons.inj same).2)
    | rejected r =>
      refine fatalsFirst_cons_rejected.mpr fun e he fatal => ?_
      obtain ⟨f, hf, hfatal, rest, front⟩ := sorted_cons_rejected he fatal r
      rw [front, List.map_cons, List.map_cons] at same
      exact apart f (List.mem_cons_of_mem _ hf) (rejected r) List.mem_cons_self hfatal (by simp)
        (List.cons.inj same).1

end Entry

namespace Journal

/-- A journal keeps two lists, so that the order between them is lost. -/
theorem addAll_eq (l : Journal) (es : List Entry) :
    (Log.addAll l es).fatals = l.fatals ++ (es.filter Entry.isFatal).map Entry.text ∧
      (Log.addAll l es).reports.map Report.text =
        l.reports.map Report.text ++ (es.filter (!·.isFatal)).map Entry.text := by
  induction es generalizing l with
  | nil => simp [Log.addAll]
  | cons e es ih =>
    obtain ⟨fatals, reports⟩ := ih (Log.add l e).log
    change (Log.addAll (Log.add l e).log es).fatals = _ ∧
      (Log.addAll (Log.add l e).log es).reports.map Report.text = _
    rw [fatals, reports]
    cases e with
    | fatal message => simp [Log.add, add, List.filter_cons, Entry.text]
    | rejected r => simp [Log.add, add, Entry.text]

theorem lines_addAll (es : List Entry) :
    (Log.addAll empty es).lines = (Entry.sorted es).map Entry.text := by
  obtain ⟨fatals, reports⟩ := addAll_eq empty es
  rw [lines, fatals, reports, Entry.sorted, List.map_append]
  rfl

end Journal

end PixelScript
