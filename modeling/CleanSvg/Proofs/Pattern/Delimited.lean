import CleanSvg.Text.Pattern

/-!
# Patterns that end by themselves

Some patterns see from what they take that they are at their end.  What comes
after has no say in what they read: it may be cut off or replaced.
-/

namespace CleanSvg.Pattern

variable {α : Type}

/-- What the pattern took decides what it reads, whatever comes after. -/
def Delimited (pattern : Pattern α) : Prop :=
  ∀ text piece, pattern.read text = some piece →
    ∀ other, pattern.read (piece.taken ++ other) = some { piece with ahead := other }

private theorem scanFrom_delimited
    {σ : Type} {step : σ → Char → Option σ} {state : σ} {behind text : Text}
    {piece : Piece Text} (found : scanFrom step state behind text = some piece) :
    ∃ inside, piece.taken = behind.reverse ++ inside ∧
      ∀ other, scanFrom step state behind (inside ++ other) =
        some { piece with ahead := other } := by
  induction text generalizing state behind with
  | nil => cases found
  | cons character ahead induction =>
      rw [scanFrom] at found
      split at found
      · rename_i last
        cases found
        refine ⟨[character], rfl, ?_⟩
        intro other
        rw [List.singleton_append, scanFrom, last]
      · rename_i next goesOn
        obtain ⟨inside, taken, reads⟩ := induction found
        refine ⟨character :: inside, by simp [taken], ?_⟩
        intro other
        rw [List.cons_append, scanFrom, goesOn]
        exact reads other

theorem Delimited.scan
    {σ : Type} (step : σ → Char → Option σ) (state : σ) :
    (scan step state).Delimited := by
  intro text piece found
  obtain ⟨inside, taken, reads⟩ := scanFrom_delimited found
  have whole : inside = piece.taken := taken.symm
  rw [whole] at reads
  exact reads

private theorem scanFrom_eq_some
    {σ : Type} {step : σ → Char → Option σ} {state : σ} {behind text : Text}
    {piece : Piece Text} (found : scanFrom step state behind text = some piece) :
    ∃ inside last after, text = inside ++ last :: piece.ahead ∧
      piece.value = behind.reverse ++ inside ∧ inside.foldlM step state = some after ∧
        step after last = none := by
  induction text generalizing state behind with
  | nil => cases found
  | cons character ahead induction =>
      rw [scanFrom] at found
      split at found
      · rename_i stops
        cases found
        exact ⟨[], character, state, rfl, by simp, rfl, stops⟩
      · rename_i next goesOn
        obtain ⟨inside, last, after, rfl, passed, followed, stops⟩ := induction found
        refine ⟨character :: inside, last, after, rfl, by simp [passed], ?_, stops⟩
        rw [List.foldlM_cons, goesOn]
        exact followed

theorem read_scan
    {σ : Type} {step : σ → Char → Option σ} {state : σ} {text : Text} {piece : Piece Text}
    (found : (scan step state).read text = some piece) :
    ∃ last after, text = piece.value ++ last :: piece.ahead ∧
      piece.value.foldlM step state = some after ∧ step after last = none := by
  obtain ⟨inside, last, after, split, passed, followed, stops⟩ := scanFrom_eq_some found
  obtain rfl : piece.value = inside := passed
  exact ⟨last, after, split, followed, stops⟩

theorem read_literal_eq_some_iff {word text : Text} {piece : Piece Unit} :
    (literal word).read text = some piece ↔
      ∃ ahead, text = word ++ ahead ∧ piece = ⟨(), word, ahead⟩ := by
  simp only [literal, Option.map_eq_some_iff, Text.after?_eq_some_iff]
  apply exists_congr
  intro ahead
  rw [@eq_comm _ piece]

theorem read_literal_eq_none_iff {word text : Text} :
    (literal word).read text = none ↔ ¬ word <+: text := by
  rw [Option.eq_none_iff_forall_ne_some]
  constructor
  · rintro refused ⟨ahead, rfl⟩
    exact refused _ (read_literal_eq_some_iff.mpr ⟨ahead, rfl, rfl⟩)
  · intro absent piece read
    obtain ⟨ahead, rfl, _⟩ := read_literal_eq_some_iff.mp read
    exact absent (List.prefix_append word ahead)

private theorem throughFrom_of_read
    {stop : Pattern α} {text : Text} {last : Piece α} (stops : stop.read text = some last)
    (behind : Text) :
    throughFrom stop behind text =
      some ⟨behind.reverse, behind.reverse ++ last.taken, last.ahead⟩ := by
  cases text <;> simp [throughFrom, stops]

private theorem throughFrom_literal (word behind other : Text) :
    throughFrom (literal word) behind (word ++ other) =
      some ⟨behind.reverse, behind.reverse ++ word, other⟩ :=
  throughFrom_of_read (read_literal_eq_some_iff.mpr ⟨other, rfl, rfl⟩) behind

private theorem throughFrom_delimited
    {word behind text : Text} {piece : Piece Text}
    (found : throughFrom (literal word) behind text = some piece) :
    ∃ inside, piece.taken = behind.reverse ++ inside ∧ word.length ≤ inside.length ∧
      ∀ other, throughFrom (literal word) behind (inside ++ other) =
        some { piece with ahead := other } := by
  induction text generalizing behind with
  | nil =>
      obtain ⟨last, read, rfl⟩ := Option.map_eq_some_iff.mp found
      obtain ⟨ahead, _, rfl⟩ := read_literal_eq_some_iff.mp read
      exact ⟨word, rfl, Nat.le_refl _, throughFrom_literal word behind⟩
  | cons character ahead induction =>
      rw [throughFrom] at found
      split at found
      · rename_i last read
        cases found
        obtain ⟨ahead, _, rfl⟩ := read_literal_eq_some_iff.mp read
        exact ⟨word, rfl, Nat.le_refl _, throughFrom_literal word behind⟩
      · rename_i refused
        obtain ⟨inside, taken, long, reads⟩ := induction found
        refine ⟨character :: inside, by simp [taken], Nat.le_succ_of_le long, ?_⟩
        intro other
        have absent : (literal word).read (character :: (inside ++ other)) = none := by
          apply read_literal_eq_none_iff.mpr
          intro begins
          have within : word <+: character :: inside := by
            apply List.prefix_of_prefix_length_le begins
            · exact (List.prefix_cons_inj character).mpr (List.prefix_append inside other)
            · exact Nat.le_succ_of_le long
          have whole : inside ++ piece.ahead = ahead := by
            have split := throughFrom_splits found
            rw [taken, List.append_assoc] at split
            exact List.append_cancel_left split
          apply read_literal_eq_none_iff.mp refused
          rw [← whole]
          exact within.trans ((List.prefix_cons_inj character).mpr (List.prefix_append _ _))
        rw [List.cons_append, throughFrom, absent]
        exact reads other

private theorem throughFrom_literal_first
    {word behind text : Text} {piece : Piece Text}
    (found : throughFrom (literal word) behind text = some piece) :
    ∃ passed, piece.value = behind.reverse ++ passed ∧ text = passed ++ (word ++ piece.ahead) ∧
      ∀ inner, inner <:+ passed → inner ≠ [] → ¬ word <+: inner ++ (word ++ piece.ahead) := by
  induction text generalizing behind with
  | nil =>
      obtain ⟨last, read, rfl⟩ := Option.map_eq_some_iff.mp found
      obtain ⟨ahead, split, rfl⟩ := read_literal_eq_some_iff.mp read
      refine ⟨[], by simp, split, ?_⟩
      intro inner inside nonempty
      exact absurd (List.suffix_nil.mp inside) nonempty
  | cons character ahead induction =>
      rw [throughFrom] at found
      split at found
      · rename_i last read
        cases found
        obtain ⟨rest, split, rfl⟩ := read_literal_eq_some_iff.mp read
        refine ⟨[], by simp, split, ?_⟩
        intro inner inside nonempty
        exact absurd (List.suffix_nil.mp inside) nonempty
      · rename_i refused
        obtain ⟨passed, value, split, early⟩ := induction found
        refine ⟨character :: passed, by simp [value], by rw [split, List.cons_append], ?_⟩
        intro inner inside nonempty
        rcases List.suffix_cons_iff.mp inside with rfl | inside
        · rw [List.cons_append, ← split]
          exact read_literal_eq_none_iff.mp refused
        · exact early inner inside nonempty

/-- What was passed over on the way to a word does not hold the word. -/
theorem read_through_literal
    {word text : Text} {piece : Piece Text} (nonempty : word ≠ [])
    (found : (through (literal word)).read text = some piece) :
    text = piece.value ++ (word ++ piece.ahead) ∧ ¬ word <:+: piece.value := by
  obtain ⟨passed, value, split, early⟩ := throughFrom_literal_first found
  obtain rfl : piece.value = passed := value
  refine ⟨split, ?_⟩
  rintro ⟨before, behind, whole⟩
  rw [List.append_assoc] at whole
  apply early (word ++ behind) ⟨before, whole⟩ (by simp [nonempty])
  rw [List.append_assoc]
  exact List.prefix_append word _

/-- Passing over a text to a word ends at the first place where all of it stands. -/
theorem Delimited.through_literal (word : Text) : (through (literal word)).Delimited := by
  intro text piece found
  obtain ⟨inside, taken, _, reads⟩ := throughFrom_delimited found
  have whole : inside = piece.taken := taken.symm
  rw [whole] at reads
  exact reads

end CleanSvg.Pattern
