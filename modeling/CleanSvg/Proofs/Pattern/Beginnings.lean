import CleanSvg.Proofs.Pattern.Scan

/-!
# Signs at which no pattern begins

Most patterns read a letter or a sign of their own first.  Where a text begins
with another one they need not be followed any further, and replacement passes
over a whole stretch of such signs, whatever comes behind it.
-/

namespace CleanSvg.Pattern

variable {α β : Type}

/-- No text that begins with this character is read. -/
def Refuses (pattern : Pattern α) (first : Char) : Prop :=
  ∀ ahead, pattern.read (first :: ahead) = none

namespace Refuses

variable {first : Char}

theorem keyword
    {letter : Char} {word : Text} (differs : Text.foldCase first ≠ letter) :
    (keyword (letter :: word)).Refuses first := by
  intro ahead
  simp [Pattern.keyword, Text.afterKeyword?, differs]

theorem one {belongs : Char → Bool} (foreign : belongs first = false) :
    (one belongs).Refuses first := by
  intro ahead
  simp [Pattern.one, foreign]

theorem bind_left
    {start : Pattern α} {next : α → Pattern β} (refuses : start.Refuses first) :
    (start >>= next).Refuses first := by
  intro ahead
  refine Option.eq_none_iff_forall_not_mem.mpr fun piece read => ?_
  obtain ⟨_, _, begins, _⟩ := read_bind_eq_some_iff.mp read
  rw [refuses ahead] at begins
  cases begins

theorem symbol {sign : Char} (differs : first ≠ sign) : (symbol sign).Refuses first :=
  @bind_left _ _ first _ (fun _ => pure ()) (.one (beq_eq_false_iff_ne.mpr differs))

theorem orElse
    {start other : Pattern α} (refuses : start.Refuses first) (refusesOther : other.Refuses first) :
    (start <|> other).Refuses first := by
  intro ahead
  rw [read_orElse, refuses ahead, refusesOther ahead]
  rfl

theorem bind_optional
    {start : Pattern α} {next : Unit → Pattern β} (refuses : start.Refuses first)
    (refusesNext : (next ()).Refuses first) : (optional start >>= next).Refuses first := by
  intro ahead
  rw [read_bind_of_some (read_optional_of_none (refuses ahead))]
  exact Option.map_eq_none_iff.mpr (refusesNext ahead)

end Refuses

/-- Replacement passes over a stretch in which the pattern begins nowhere. -/
theorem replaceAll_append_of_not_read
    {pattern : Pattern α} {front text : Text}
    (refused : ∀ inner, inner <:+ front → inner ≠ [] → pattern.read (inner ++ text) = none)
    (replacement : Piece α → Text) :
    pattern.replaceAll replacement (front ++ text) =
      front ++ pattern.replaceAll replacement text := by
  induction front with
  | nil => rfl
  | cons character front induction =>
      have here : pattern.read (character :: (front ++ text)) = none :=
        refused (character :: front) (List.suffix_refl _) (List.cons_ne_nil _ _)
      have later : ∀ inner, inner <:+ front → inner ≠ [] →
          pattern.read (inner ++ text) = none := fun inner inside =>
        refused inner (inside.trans (List.suffix_cons character front))
      rw [List.cons_append, replaceAll_of_not_read (by simp [here]), induction later,
        List.cons_append]

theorem replaceAll_append_of_refuses
    {pattern : Pattern α} {front : Text} (refuses : ∀ sign ∈ front, pattern.Refuses sign)
    (replacement : Piece α → Text) (text : Text) :
    pattern.replaceAll replacement (front ++ text) =
      front ++ pattern.replaceAll replacement text := by
  refine replaceAll_append_of_not_read (fun inner inside nonempty => ?_) replacement
  obtain ⟨sign, others, rfl⟩ := List.exists_cons_of_ne_nil nonempty
  exact refuses sign (inside.subset List.mem_cons_self) (others ++ text)

theorem eraseAll_append_of_refuses
    {pattern : Pattern α} {front : Text} (refuses : ∀ sign ∈ front, pattern.Refuses sign)
    (text : Text) : pattern.eraseAll (front ++ text) = front ++ pattern.eraseAll text :=
  replaceAll_append_of_refuses refuses _ text

end CleanSvg.Pattern
