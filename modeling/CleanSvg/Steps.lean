/-!
# Steps that may fail

A chain of steps succeeds exactly when each step does, on what the step before
it gave, and it fails for the cause of the first step that does not.
-/

namespace CleanSvg

theorem bind_eq_ok_iff {ε α β : Type} {first : Except ε α} {next : α → Except ε β}
    {result : β} :
    (first >>= next) = .ok result ↔ ∃ value, first = .ok value ∧ next value = .ok result := by
  cases first with
  | error cause =>
      constructor
      · intro found
        cases found
      · rintro ⟨value, found, _⟩
        cases found
  | ok value =>
      constructor
      · intro found
        exact ⟨value, rfl, found⟩
      · rintro ⟨other, same, found⟩
        cases same
        exact found

theorem bind_eq_error_iff {ε α β : Type} {first : Except ε α} {next : α → Except ε β}
    {cause : ε} :
    (first >>= next) = .error cause ↔
      first = .error cause ∨ ∃ value, first = .ok value ∧ next value = .error cause := by
  cases first with
  | error other =>
      constructor
      · intro failed
        cases failed
        exact Or.inl rfl
      · rintro (same | ⟨value, found, _⟩)
        · cases same
          rfl
        · cases found
  | ok value =>
      constructor
      · intro failed
        exact Or.inr ⟨value, rfl, failed⟩
      · rintro (same | ⟨other, same, failed⟩)
        · cases same
        · cases same
          exact failed

theorem map_eq_ok_iff {ε α β : Type} {first : Except ε α} {next : α → β} {result : β} :
    first.map next = .ok result ↔ ∃ value, first = .ok value ∧ next value = result := by
  cases first with
  | error cause => simp [Except.map]
  | ok value => simp [Except.map]

end CleanSvg
