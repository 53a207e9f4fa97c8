namespace PixelScript

/-- Why a file or stream refuses to be opened, read or written. -/
inductive IoError where
  | notFound
  | notADirectory
  | isADirectory
  | noSpace
  | nameTooLong
  | nulInName
  | notUtf8
  | other (message : String)
  deriving DecidableEq

def IoError.message : IoError → String
  | notFound => "No such file or directory (os error 2)"
  | notADirectory => "Not a directory (os error 20)"
  | isADirectory => "Is a directory (os error 21)"
  | noSpace => "No space left on device (os error 28)"
  | nameTooLong => "File name too long (os error 36)"
  | nulInName => "file name contained an unexpected NUL byte"
  | notUtf8 => "stream did not contain valid UTF-8"
  | other message => message

variable {ε δ α β : Type}

theorem bind_eq_ok_iff {x : Except ε α} {f : α → Except ε β} {b : β} :
    (x >>= f) = .ok b ↔ ∃ a, x = .ok a ∧ f a = .ok b := by
  cases x with
  | error e => simp [bind, Except.bind]
  | ok a => simp [bind, Except.bind]

theorem mapError_eq_ok_iff {x : Except ε α} {f : ε → δ} {a : α} :
    x.mapError f = .ok a ↔ x = .ok a := by
  constructor
  all_goals
    intro h
    cases x <;> cases h
    rfl

theorem mapError_eq_error_iff {x : Except ε α} {f : ε → δ} {d : δ} :
    x.mapError f = .error d ↔ ∃ e, x = .error e ∧ f e = d := by
  constructor
  · intro h
    cases x <;> cases h
    exact ⟨_, rfl, rfl⟩
  · rintro ⟨e, rfl, rfl⟩
    rfl

theorem ok_bind (a : α) (f : α → Except ε β) : (Except.ok a >>= f) = f a := rfl

/-- A fold whose steps succeed as long as an invariant holds is the plain fold. -/
theorem foldlM_eq_ok {P : β → Prop} {step : β → α → Except ε β} {next : β → α → β}
    (succeeds : ∀ b a, P b → step b a = .ok (next b a)) (keeps : ∀ b a, P b → P (next b a))
    {b : β} (hb : P b) (as : List α) : as.foldlM step b = .ok (as.foldl next b) := by
  induction as generalizing b with
  | nil => rfl
  | cons a as ih =>
    rw [List.foldlM_cons, succeeds b a hb, ok_bind, ih (keeps b a hb), List.foldl_cons]

end PixelScript
