import CleanSvg.Text.Basic

/-!
# Signs in texts

There are finitely many characters, but far too many to go through.  What holds
for the members of a short list of them is checked along the list.  A sign cuts a
text at the first place where it stands.
-/

namespace CleanSvg

theorem forall_mem_of_all
    {α : Type} {holds : α → Prop} [DecidablePred holds] {members : List α}
    (checked : (members.all fun member => decide (holds member)) = true) :
    ∀ member ∈ members, holds member := by
  intro member inside
  exact of_decide_eq_true (List.all_eq_true.mp checked member inside)

namespace Text

theorem ne_of_mem_takeWhile (sign : Char) (text : Text) :
    ∀ letter ∈ text.takeWhile (· != sign), letter ≠ sign :=
  fun letter member => bne_iff_ne.mp (List.all_eq_true.mp List.all_takeWhile letter member)

theorem dropWhile_ne_append
    {sign : Char} {front : Text} (absent : sign ∉ front) (ahead : Text) :
    (front ++ ahead).dropWhile (· != sign) = ahead.dropWhile (· != sign) := by
  refine List.dropWhile_append_of_pos fun character member => bne_iff_ne.mpr ?_
  rintro rfl
  exact absent member

end Text

end CleanSvg
