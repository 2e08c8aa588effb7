import CleanSvg.Link.Context
import CleanSvg.Proofs.Text.CaseFold

/-!
# Addresses are judged by how they begin

Whether an address is a reference into the document or of an allowed media type
depends on a beginning of it: what follows cannot undo a positive answer, nor
change any answer after a sign that no media type holds.
-/

namespace CleanSvg

namespace Text

/-- The white space that counts as visible: the next line and the narrow no-break space. -/
theorem isBlank_and_visible_iff {character : Char} :
    (isBlank character = true ∧ isInvisible character = false) ↔
      character = '\u0085' ∨ character = '\u202F' := by
  have nextLine : character = '\u0085' ↔ character.toNat = 0x85 :=
    Char.toNat_inj.symm
  have narrowSpace : character = '\u202F' ↔ character.toNat = 0x202F :=
    Char.toNat_inj.symm
  rw [nextLine, narrowSpace]
  simp only [isBlank, isInvisible, CharacterSet.contains, CharacterSet.whiteSpace,
    CharacterSet.invisible, List.any_cons, List.any_nil, Bool.or_eq_true,
    Bool.or_eq_false_iff, Bool.and_eq_true, Bool.and_eq_false_iff,
    decide_eq_true_eq, decide_eq_false_iff_not, Bool.or_false]
  omega

end Text

namespace MediaTypes

/-- Whether an address is allowed is decided before a sign that no type holds. -/
theorem accept_append_of_mem
    {sign : Char} {types : MediaTypes} {address : Text}
    (fixed : Text.foldCase sign = sign) (notScheme : sign ∉ "data:".toList)
    (foreign : ∀ mediaType ∈ types, sign ∉ mediaType)
    (member : sign ∈ address) (more : Text) :
    accept types (address ++ more) = accept types address := by
  obtain ⟨schemeAppend, schemeRest⟩ :=
    Text.afterKeyword?_append_of_mem fixed notScheme member more
  rw [accept, accept, schemeAppend]
  cases scheme : Text.afterKeyword? "data:".toList address with
  | none => rfl
  | some content =>
      have sameType : ∀ mediaType ∈ types,
          beginsWithType mediaType (content ++ more) =
            beginsWithType mediaType content := by
        intro mediaType listed
        obtain ⟨typeAppend, typeRest⟩ := Text.afterKeyword?_append_of_mem fixed
          (foreign mediaType listed) (schemeRest content scheme) more
        rw [beginsWithType, beginsWithType, typeAppend]
        cases found : Text.afterKeyword? mediaType content with
        | none => rfl
        | some rest =>
            cases rest with
            | nil => exact absurd (typeRest [] found) (by simp)
            | cons next rest => rfl
      show List.any types (fun mediaType =>
          beginsWithType mediaType (content ++ more)) =
        List.any types fun mediaType => beginsWithType mediaType content
      rw [Bool.eq_iff_iff, List.any_eq_true, List.any_eq_true]
      refine exists_congr fun mediaType => and_congr_right fun listed => ?_
      rw [sameType mediaType listed]

theorem accept_append_right
    {types : MediaTypes} {address : Text} (allowed : accept types address = true)
    (more : Text) : accept types (address ++ more) = true := by
  rw [accept] at allowed ⊢
  cases scheme : Text.afterKeyword? "data:".toList address with
  | none => rw [scheme] at allowed; cases allowed
  | some content =>
      rw [scheme] at allowed
      rw [Text.afterKeyword?_append_right scheme]
      obtain ⟨mediaType, listed, begins⟩ := List.any_eq_true.mp allowed
      refine List.any_eq_true.mpr ⟨mediaType, listed, ?_⟩
      rw [beginsWithType] at begins ⊢
      cases found : Text.afterKeyword? mediaType content with
      | none => rw [found] at begins; cases begins
      | some rest =>
          rw [found] at begins
          rw [Text.afterKeyword?_append_right found]
          cases rest with
          | nil => cases begins
          | cons next rest => exact begins

end MediaTypes

end CleanSvg
