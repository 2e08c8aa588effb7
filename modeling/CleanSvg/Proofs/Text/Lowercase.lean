import CleanSvg.Link.Invisible
import CleanSvg.Text.Lowercase

/-!
# What lowering a text keeps

Signs and invisible characters have no small form, so they stand in the lowercase
form of a text wherever they stand in the text.  The lowercase form of a text
begins with that of its first letter, whatever comes after.
-/

namespace CleanSvg.Text

/-- Lowering leaves the character as it is. -/
def KeepsCase (character : Char) : Prop :=
  lowerLetter character = [character] ∧ character ≠ '\u03A3'

instance (character : Char) : Decidable (KeepsCase character) :=
  inferInstanceAs (Decidable (_ ∧ _))

theorem lowercaseAfter_cons_of_keepsCase
    {character : Char} (keeps : KeepsCase character) (before after : Text) :
    lowercaseAfter before (character :: after) =
      character :: lowercaseAfter (character :: before) after := by
  rw [lowercaseAfter, if_neg keeps.2, keeps.1]
  rfl

theorem mem_lowercaseAfter
    {character : Char} (keeps : KeepsCase character) {text : Text} (before : Text)
    (member : character ∈ text) : character ∈ lowercaseAfter before text := by
  induction text generalizing before with
  | nil => cases member
  | cons first text induction =>
      rcases List.mem_cons.mp member with rfl | member
      · rw [lowercaseAfter_cons_of_keepsCase keeps]
        exact List.mem_cons_self
      · exact List.mem_append_right _ (induction (first :: before) member)

theorem mem_lowercase
    {character : Char} (keeps : KeepsCase character) {text : Text}
    (member : character ∈ text) : character ∈ lowercase text :=
  mem_lowercaseAfter keeps [] member

theorem keepsCase_of_isInvisible {character : Char} (invisible : isInvisible character = true) :
    KeepsCase character := by
  have apart : ∀ capitals ∈ CaseRange.all, ∀ range ∈ CharacterSet.invisible.ranges,
      capitals.last < range.1 ∨ range.2 < capitals.first := by decide +kernel
  obtain ⟨range, member, above, below⟩ := CharacterSet.contains_iff.mp invisible
  refine ⟨?_, ?_⟩
  · have noDot : character ≠ '\u0130' := by
      rintro rfl
      exact absurd invisible (by decide)
    have noCapital : (CaseRange.all.find? fun capitals =>
        capitals.contains character.toNat) = none := by
      refine List.find?_eq_none.mpr fun capitals listed inside => ?_
      simp only [CaseRange.contains, Bool.and_eq_true, decide_eq_true_eq] at inside
      have outside := apart capitals listed range member
      omega
    rw [lowerLetter, if_neg noDot, noCapital]
  · rintro rfl
    exact absurd invisible (by decide)

theorem head?_lowercase_cons
    {first : Char} (noSigma : first ≠ '\u03A3') (others : Text) :
    (lowercase (first :: others)).head? = (lowerLetter first).head? := by
  have letter : ∃ head tail, lowerLetter first = head :: tail := by
    unfold lowerLetter
    split
    · exact ⟨_, _, rfl⟩
    · split <;> exact ⟨_, _, rfl⟩
  obtain ⟨head, tail, lowered⟩ := letter
  rw [lowercase, lowercaseAfter, if_neg noSigma, lowered]
  rfl

end CleanSvg.Text
