import Mathlib.Data.List.DropRight
import CleanSvg.Proofs.Style.NormalForm
import CleanSvg.Proofs.Style.Tokens

/-!
# Calls that are never closed

A call of `expression` is found only if a closing parenthesis stands somewhere
behind its opening.  Of the openings in cleaned text, at whatever place they
stand, none has one behind it; but an opening behind the last closing
parenthesis of the text is no call and stays.  A `url` token that is not closed,
on the other hand, runs to the end of the text.
-/

namespace CleanSvg.Style

/-- The opening of a call of `expression`. -/
def expressionOpening : Pattern Unit :=
  callOpening "expression"

/-- What stands behind the last closing parenthesis, or the whole text if there is none. -/
def openEnd (css : Text) : Text :=
  css.rtakeWhile (· != ')')

/-- The rests of a text that hold no closing parenthesis are those of its open end. -/
theorem suffix_openEnd_iff {css rest : Text} :
    rest <:+ openEnd css ↔ rest <:+ css ∧ ')' ∉ rest := by
  constructor
  · intro inside
    refine ⟨inside.trans (List.rtakeWhile_suffix _ css), ?_⟩
    intro member
    have passed := List.mem_rtakeWhile_imp (inside.subset member)
    exact absurd passed (by decide)
  · rintro ⟨⟨front, rfl⟩, absent⟩
    have passed : ∀ character ∈ rest.reverse, (character != ')') = true := by
      intro character member
      refine bne_iff_ne.mpr ?_
      rintro rfl
      exact absent (List.mem_reverse.mp member)
    rw [openEnd, List.rtakeWhile, List.reverse_append, List.takeWhile_append_of_pos passed,
      List.reverse_append, List.reverse_reverse]
    exact List.suffix_append _ _

theorem closedCall_read_isSome_iff {name text : Text} :
    ((closedCall name).read text).isSome = true ↔
      ∃ opening, (callOpening name).read text = some opening ∧ ')' ∈ opening.ahead := by
  rw [Option.isSome_iff_exists]
  constructor
  · rintro ⟨call, read⟩
    obtain ⟨opening, rest, opens, read, _⟩ := Pattern.read_bind_eq_some_iff.mp read
    obtain ⟨body, _, closed, _⟩ := Pattern.read_bind_eq_some_iff.mp read
    exact ⟨opening, opens,
      Pattern.read_through_symbol_isSome_iff.mp (Option.isSome_of_mem closed)⟩
  · rintro ⟨opening, opens, closes⟩
    obtain ⟨body, closed⟩ := Option.isSome_iff_exists.mp
      (Pattern.read_through_symbol_isSome_iff.mpr closes)
    exact ⟨_, Pattern.read_bind_eq_some_iff.mpr ⟨opening, _, opens,
      Pattern.read_bind_eq_some_iff.mpr ⟨body, _, closed, rfl, rfl⟩, rfl⟩⟩

/-- A text without closed calls is one in which no opening has a closing parenthesis
behind it. -/
theorem closedCall_occursIn_eq_false_iff {name css : Text} :
    (closedCall name).occursIn css = false ↔
      ∀ rest opening, rest <:+ css → (callOpening name).read rest = some opening →
        ')' ∉ opening.ahead := by
  rw [Pattern.occursIn_eq_false_iff]
  constructor
  · intro refused rest opening inside opens closes
    have reads := closedCall_read_isSome_iff.mpr ⟨opening, opens, closes⟩
    rw [refused rest inside] at reads
    cases reads
  · intro unclosed rest inside
    refine Option.not_isSome_iff_eq_none.mp fun reads => ?_
    obtain ⟨opening, opens, closes⟩ := closedCall_read_isSome_iff.mp reads
    exact unclosed rest opening inside opens closes

/-- In text without closed calls, an opening stands in the open end or nowhere. -/
theorem callOpening_occursIn_openEnd
    {name css : Text} (foreign : ')' ∉ name) (noCall : (closedCall name).occursIn css = false) :
    (callOpening name).occursIn css = (callOpening name).occursIn (openEnd css) := by
  rw [Bool.eq_iff_iff, Pattern.occursIn_iff, Pattern.occursIn_iff]
  constructor
  · rintro ⟨rest, opening, inside, opens⟩
    refine ⟨rest, opening, suffix_openEnd_iff.mpr ⟨inside, ?_⟩, opens⟩
    rw [← (callOpening name).splits opens]
    intro member
    rcases List.mem_append.mp member with taken | behind
    · exact parenthesis_not_mem_callOpening opens foreign taken
    · exact closedCall_occursIn_eq_false_iff.mp noCall rest opening inside opens behind
  · rintro ⟨rest, opening, inside, opens⟩
    exact ⟨rest, opening, (suffix_openEnd_iff.mp inside).1, opens⟩

/-- Cleaned text holds no opening of a call of `expression` exactly if none stands behind its
last closing parenthesis, and whatever openings it holds are never closed. -/
theorem expressionOpening_clean (css : Text) :
    (expressionOpening.occursIn (clean css) = false ↔
        expressionOpening.occursIn (openEnd (clean css)) = false) ∧
      ∀ rest opening, rest <:+ clean css → expressionOpening.read rest = some opening →
        ')' ∉ opening.ahead := by
  have noCall := (isClean_clean css).noExpression
  refine ⟨?_, closedCall_occursIn_eq_false_iff.mp noCall⟩
  rw [expressionOpening, callOpening_occursIn_openEnd (by decide) noCall]

theorem unclosedExpression_kept :
    clean "width: expression(alert(1" = "width: expression(alert(1".toList ∧
      expressionOpening.occursIn (clean "width: expression(alert(1") = true := by
  constructor
  · decide +kernel
  · decide +kernel

end CleanSvg.Style
