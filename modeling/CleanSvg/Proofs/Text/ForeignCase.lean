import CleanSvg.Proofs.Text.CaseFold
import CleanSvg.Proofs.Text.Lowercase

/-!
# Capitals outside ASCII

Inside ASCII the two notions of lowering agree, so the lowercase form of a text is
more than its ASCII form only where the text has a capital from elsewhere.  One such
capital alone is lowered into ASCII: the Kelvin sign.
-/

namespace CleanSvg.Text

def IsAscii (character : Char) : Prop :=
  character.toNat < 0x80

instance (character : Char) : Decidable (IsAscii character) :=
  inferInstanceAs (Decidable (_ < _))

/-- Lowering changes the character although ASCII lowering does not reach it. -/
def ForeignCapital (character : Char) : Prop :=
  ¬ IsAscii character ∧ ¬ KeepsCase character

instance (character : Char) : Decidable (ForeignCapital character) :=
  inferInstanceAs (Decidable (_ ∧ _))

theorem lowerLetter_of_isAscii {character : Char} (ascii : IsAscii character) :
    lowerLetter character = [character.toLower] ∧ character ≠ '\u03A3' := by
  have checked : ∀ code < 0x80, lowerLetter (Char.ofNat code) = [(Char.ofNat code).toLower] ∧
      Char.ofNat code ≠ '\u03A3' := by decide +kernel
  have whole := checked character.toNat ascii
  rwa [Char.ofNat_toNat] at whole

theorem toLower_of_not_isAscii {character : Char} (foreign : ¬ IsAscii character) :
    character.toLower = character := by
  rcases toLower_eq_self_or_letter character with kept | letter
  · exact kept
  · have moved : character = character.toLower ∨
        character.toNat + 32 = character.toLower.toNat := eq_or_toNat_of_toLower_eq rfl
    have small : character.toLower.toNat ≤ 'z'.toNat := letter.2
    rcases moved with kept | moved
    · exact kept.symm
    · have bound : 'z'.toNat = 122 := rfl
      rw [IsAscii] at foreign
      omega

theorem lowercaseAfter_eq_asciiLowercase
    {text : Text} (native : ∀ character ∈ text, ¬ ForeignCapital character) (before : Text) :
    lowercaseAfter before text = asciiLowercase text := by
  induction text generalizing before with
  | nil => rfl
  | cons character text induction =>
      obtain ⟨first, others⟩ := List.forall_mem_cons.mp native
      have lowered : lowerLetter character = [character.toLower] ∧ character ≠ '\u03A3' := by
        by_cases ascii : IsAscii character
        · exact lowerLetter_of_isAscii ascii
        · have keeps : KeepsCase character :=
            Decidable.byContradiction fun capital => first ⟨ascii, capital⟩
          rw [toLower_of_not_isAscii ascii]
          exact keeps
      rw [lowercaseAfter, if_neg lowered.2, lowered.1, induction others]
      rfl

/-- No range but that of the Kelvin sign leads from outside ASCII into it. -/
theorem CaseRange.not_isAscii
    {range : CaseRange} (listed : range ∈ CaseRange.all) {code : Nat}
    (inside : range.contains code = true) (foreign : 0x80 ≤ code) (noKelvin : code ≠ 0x212A) :
    ¬ IsAscii (Char.ofNat (code + range.shift).toNat) := by
  have checked : ∀ range ∈ CaseRange.all, range.last < 0x80 ∨
      (range.first = 0x212A ∧ range.last = 0x212A) ∨
      (0x80 ≤ range.first + range.shift ∧ range.last + range.shift < 0xD800) ∨
      (0xE000 ≤ range.first + range.shift ∧ range.last + range.shift < 0x110000) := by
    decide +kernel
  simp only [CaseRange.contains, Bool.and_eq_true, decide_eq_true_eq] at inside
  obtain ⟨⟨above, below⟩, _⟩ := inside
  have apart := checked range listed
  have valid : (code + range.shift).toNat.isValidChar := by
    unfold Nat.isValidChar
    omega
  have target : (Char.ofNat (code + range.shift).toNat).toNat = (code + range.shift).toNat := by
    rw [Char.ofNat, dif_pos valid]
    rfl
  rw [IsAscii, target]
  omega

theorem lowerLetter_foreign
    {character : Char} (foreign : ¬ IsAscii character) (noKelvin : character ≠ '\u212A') :
    ∃ letter ∈ lowerLetter character, ¬ IsAscii letter := by
  unfold lowerLetter
  split
  · exact ⟨'\u0307', by decide, by decide⟩
  · split
    · rename_i range found
      refine ⟨_, List.mem_singleton_self _, ?_⟩
      have inside := List.find?_some found
      apply CaseRange.not_isAscii (List.mem_of_find?_eq_some found) inside
      · exact Nat.not_lt.mp foreign
      · intro same
        apply noKelvin
        rw [← Char.ofNat_toNat character, same]
    · exact ⟨character, List.mem_singleton_self _, foreign⟩

/-- In a text whose lowercase form is in ASCII, everything foreign is a Kelvin sign. -/
theorem kelvin_of_isAscii_lowercaseAfter
    {text : Text} (before : Text)
    (ascii : ∀ letter ∈ lowercaseAfter before text, IsAscii letter) :
    ∀ character ∈ text, ¬ IsAscii character → character = '\u212A' := by
  induction text generalizing before with
  | nil => exact nofun
  | cons first text induction =>
      rw [lowercaseAfter] at ascii
      obtain ⟨firstAscii, othersAscii⟩ := List.forall_mem_append.mp ascii
      refine List.forall_mem_cons.mpr ⟨?_, induction (first :: before) othersAscii⟩
      intro foreign
      apply Decidable.byContradiction
      intro noKelvin
      split at firstAscii
      · split at firstAscii
        · exact absurd (firstAscii _ List.mem_cons_self) (by decide)
        · exact absurd (firstAscii _ List.mem_cons_self) (by decide)
      · obtain ⟨letter, member, letterForeign⟩ := lowerLetter_foreign foreign noKelvin
        exact letterForeign (firstAscii letter member)

variable {left right : Text}

/-- Texts that agree in lowercase but not within ASCII hold a foreign capital. -/
theorem exists_foreignCapital
    (apart : equalsIgnoringAsciiCase left right = false)
    (same : lowercase left = lowercase right) :
    ∃ character ∈ left ++ right, ForeignCapital character := by
  apply Decidable.byContradiction
  intro none
  have native : ∀ character ∈ left ++ right, ¬ ForeignCapital character := by
    intro character member foreign
    exact none ⟨character, member, foreign⟩
  obtain ⟨nativeLeft, nativeRight⟩ := List.forall_mem_append.mp native
  rw [lowercase, lowercase, lowercaseAfter_eq_asciiLowercase nativeLeft,
    lowercaseAfter_eq_asciiLowercase nativeRight] at same
  exact beq_eq_false_iff_ne.mp apart same

theorem kelvin_mem
    (apart : equalsIgnoringAsciiCase left right = false)
    (same : lowercase left = lowercase right)
    (ascii : ∀ letter ∈ lowercase left, IsAscii letter) : '\u212A' ∈ left ++ right := by
  obtain ⟨character, member, foreign, _⟩ := exists_foreignCapital apart same
  have kelvin : character = '\u212A' := by
    rcases List.mem_append.mp member with inLeft | inRight
    · exact kelvin_of_isAscii_lowercaseAfter [] ascii character inLeft foreign
    · rw [same] at ascii
      exact kelvin_of_isAscii_lowercaseAfter [] ascii character inRight foreign
  rwa [← kelvin]

end CleanSvg.Text
