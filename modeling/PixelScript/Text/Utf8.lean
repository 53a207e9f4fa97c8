namespace PixelScript.Text

theorem fromUTF8?_eq_some_iff {bytes : ByteArray} {text : String} :
    String.fromUTF8? bytes = some text ↔ bytes = text.toUTF8 := by
  unfold String.fromUTF8?
  split
  · constructor
    · intro h
      cases h
      rfl
    · intro h
      subst h
      rfl
  · next invalid =>
    constructor
    · intro h
      cases h
    · intro h
      subst h
      exact absurd text.isValidUTF8 invalid

theorem isValidUTF8_iff {bytes : ByteArray} :
    bytes.IsValidUTF8 ↔ ∃ text : String, bytes = text.toUTF8 := by
  constructor
  · intro valid
    exact ⟨String.fromUTF8 bytes valid, rfl⟩
  · intro ⟨text, code⟩
    rw [code]
    exact text.isValidUTF8

theorem fromUTF8?_flatMap (cs : List Char) :
    String.fromUTF8? (cs.flatMap String.utf8EncodeChar).toByteArray = some (String.ofList cs) :=
  fromUTF8?_eq_some_iff.mpr rfl

theorem toList_toUTF8 (text : String) :
    text.toUTF8.data.toList = text.toList.flatMap String.utf8EncodeChar := by
  have h := congrArg (fun bytes => bytes.data.toList) (String.utf8Encode_toList (b := text))
  simpa [List.utf8Encode] using h.symm

/-- A byte below 128 is no part of the code of any character but the one that it stands for. -/
theorem toNat_of_mem_utf8EncodeChar {b : UInt8} {c : Char} (hb : b.toNat < 128)
    (h : b ∈ String.utf8EncodeChar c) : c.toNat = b.toNat := by
  change c.val.toNat = b.toNat
  unfold String.utf8EncodeChar at h
  dsimp only at h
  repeat' split at h
  all_goals
    simp only [List.mem_cons, List.not_mem_nil, or_false, ← UInt8.toNat_inj,
      UInt8.toNat_ofNat'] at h
    omega

theorem lineFeed_mem_utf8EncodeChar {c : Char} : 10 ∈ String.utf8EncodeChar c ↔ c = '\n' := by
  constructor
  · intro h
    exact Char.toNat_inj.mp (toNat_of_mem_utf8EncodeChar (by decide) h)
  · intro h
    subst h
    decide

theorem lineFeed_mem_flatMap {cs : List Char} :
    10 ∈ cs.flatMap String.utf8EncodeChar ↔ '\n' ∈ cs := by
  simp [List.mem_flatMap, lineFeed_mem_utf8EncodeChar]

end PixelScript.Text
