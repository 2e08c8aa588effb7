import CleanSvg.Text.CaseFold

/-!
# Case folding and signs

Folding ends in a small letter or does nothing, so a keyword without letters
has a single spelling.  A keyword is found by the beginning of a text alone:
what follows a sign that the keyword cannot hold plays no part.
-/

namespace CleanSvg.Text

theorem toLower_eq_self_or_letter (character : Char) :
    character.toLower = character ∨
      'a' ≤ character.toLower ∧ character.toLower ≤ 'z' := by
  delta Char.toLower
  split
  · rename_i capital
    obtain ⟨lower, upper⟩ := capital
    have capitalA : ('A'.val).toNat = 65 := rfl
    have capitalZ : ('Z'.val).toNat = 90 := rfl
    have smallA : ('a'.val).toNat = 97 := rfl
    have smallZ : ('z'.val).toNat = 122 := rfl
    have shift : ('a'.val - 'A'.val).toNat = 32 := rfl
    simp only [ge_iff_le, UInt32.le_iff_toNat_le] at lower upper
    simp only [Char.le_def, UInt32.le_iff_toNat_le, UInt32.toNat_add]
    omega
  · exact Or.inl rfl

theorem foldCase_eq_self_or_letter (character : Char) :
    foldCase character = character ∨
      'a' ≤ foldCase character ∧ foldCase character ≤ 'z' := by
  unfold foldCase
  split
  · exact Or.inr (by decide)
  · split
    · exact Or.inr (by decide)
    · exact toLower_eq_self_or_letter character

theorem equalsIgnoringAsciiCase_comm (left right : Text) :
    equalsIgnoringAsciiCase left right = equalsIgnoringAsciiCase right left :=
  BEq.comm

theorem eq_or_toNat_of_toLower_eq {character letter : Char} (lowered : character.toLower = letter) :
    character = letter ∨ character.toNat + 32 = letter.toNat := by
  subst lowered
  delta Char.toLower
  split
  · rename_i capital
    obtain ⟨lower, upper⟩ := capital
    have capitalZ : ('Z'.val).toNat = 90 := rfl
    have shift : ('a'.val - 'A'.val).toNat = 32 := rfl
    simp only [ge_iff_le, UInt32.le_iff_toNat_le] at lower upper
    right
    simp only [Char.toNat, UInt32.toNat_add]
    omega
  · exact Or.inl rfl

/-- Names that begin with different signs differ in more than the case of letters. -/
theorem equalsIgnoringAsciiCase_of_sign
    {sign first : Char} (noLetter : ¬ ('a' ≤ sign ∧ sign ≤ 'z'))
    (fixed : sign.toLower = sign) (differs : first ≠ sign) (left right : Text) :
    equalsIgnoringAsciiCase (sign :: left) (first :: right) = false := by
  refine beq_eq_false_iff_ne.mpr fun same => ?_
  have heads := (List.cons.inj same).1
  rw [fixed] at heads
  rcases toLower_eq_self_or_letter first with kept | letter
  · exact differs (kept.symm.trans heads.symm)
  · rw [← heads] at letter
    exact noLetter letter

/-- A keyword without letters is spelled in one way only. -/
theorem map_foldCase_eq_iff {word spelling : Text}
    (signs : ∀ sign ∈ word, foldCase sign = sign ∧ ¬ ('a' ≤ sign ∧ sign ≤ 'z')) :
    spelling.map foldCase = word ↔ spelling = word := by
  induction word generalizing spelling with
  | nil => exact List.map_eq_nil_iff
  | cons sign word induction =>
      obtain ⟨⟨fixed, noLetter⟩, others⟩ := List.forall_mem_cons.mp signs
      cases spelling with
      | nil => simp
      | cons character spelling =>
          have same : foldCase character = sign ↔ character = sign := by
            constructor
            · rintro rfl
              rcases foldCase_eq_self_or_letter character with kept | letter
              · exact kept.symm
              · exact absurd letter noLetter
            · rintro rfl
              exact fixed
          rw [List.map_cons, List.cons.injEq, List.cons.injEq, same, induction others]

/-- A sign that folding leaves stands in no spelling of a keyword that is free of it. -/
theorem not_mem_of_map_foldCase
    {word spelling : Text} {sign : Char} (folded : spelling.map foldCase = word)
    (fixed : foldCase sign = sign) (foreign : sign ∉ word) : sign ∉ spelling := by
  intro member
  have folds := List.mem_map_of_mem member (f := foldCase)
  rw [folded, fixed] at folds
  exact foreign folds

theorem afterKeyword?_append_right
    {word text ahead : Text} (found : afterKeyword? word text = some ahead)
    (more : Text) : afterKeyword? word (text ++ more) = some (ahead ++ more) := by
  obtain ⟨spelling, folded, rfl⟩ := afterKeyword?_eq_some_iff.mp found
  exact afterKeyword?_eq_some_iff.mpr ⟨spelling, folded, by simp⟩

/-- A sign that a keyword cannot hold keeps it from reaching into what follows. -/
theorem afterKeyword?_append_of_mem
    {sign : Char} {word text : Text} (fixed : foldCase sign = sign)
    (foreign : sign ∉ word) (member : sign ∈ text) (more : Text) :
    afterKeyword? word (text ++ more) =
        (afterKeyword? word text).map (· ++ more) ∧
      ∀ ahead, afterKeyword? word text = some ahead → sign ∈ ahead := by
  induction word generalizing text with
  | nil =>
      refine ⟨rfl, ?_⟩
      rintro ahead found
      cases found
      exact member
  | cons letter word induction =>
      obtain ⟨notLetter, foreignRest⟩ := List.ne_and_not_mem_of_not_mem_cons foreign
      cases text with
      | nil => cases member
      | cons character text =>
          rw [List.cons_append, afterKeyword?, afterKeyword?]
          by_cases same : foldCase character = letter
          · rw [if_pos same, if_pos same]
            refine induction foreignRest ?_
            rcases List.mem_cons.mp member with rfl | later
            · exact absurd (fixed.symm.trans same) notLetter
            · exact later
          · rw [if_neg same, if_neg same]
            exact ⟨rfl, by simp⟩

end CleanSvg.Text
