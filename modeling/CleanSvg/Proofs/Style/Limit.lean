import Mathlib.Logic.Function.Iterate
import CleanSvg.Proofs.Style.Steps

/-!
# Passes without a limit

A pass leaves style text as it is or leaves fewer characters of it, so passes that go
on until one changes nothing come to an end on every text.  Cleaning gives the text at
which they end, or nothing where the passes that it makes are too few.
-/

namespace CleanSvg.Style

/-- What is left when passes go on until one of them changes nothing. -/
def limit (css : Text) : Text :=
  if cleanOnce css = css then css else limit (cleanOnce css)
termination_by css.length
decreasing_by
  rename_i changed
  exact (shrinks_cleanOnce css).resolve_left changed

theorem limit_of_fixed {css : Text} (fixed : cleanOnce css = css) : limit css = css := by
  rw [limit, if_pos fixed]

theorem limit_cleanOnce (css : Text) : limit (cleanOnce css) = limit css := by
  by_cases fixed : cleanOnce css = css
  · rw [fixed]
  · conv => rhs; rw [limit, if_neg fixed]

theorem cleanOnce_limit (css : Text) : cleanOnce (limit css) = limit css := by
  fun_induction limit css with
  | case1 css fixed => exact fixed
  | case2 css changed induction => exact induction

theorem limit_eq_self_iff {css : Text} : limit css = css ↔ cleanOnce css = css := by
  constructor
  · intro same
    rw [← same]
    exact cleanOnce_limit css
  · exact limit_of_fixed

theorem limit_length_le (css : Text) : (limit css).length ≤ css.length := by
  fun_induction limit css with
  | case1 css fixed => exact Nat.le_refl _
  | case2 css changed induction => exact Nat.le_trans induction (cleanOnce_length_le css)

/-- No more passes change a text than characters are lost. -/
theorem iterate_cleanOnce_eq_limit
    {css : Text} {passes : Nat} (enough : css.length ≤ (limit css).length + passes) :
    cleanOnce^[passes] css = limit css := by
  fun_induction limit css generalizing passes with
  | case1 css fixed => exact Function.iterate_fixed fixed passes
  | case2 css changed induction =>
      have shorter := (shrinks_cleanOnce css).resolve_left changed
      have rest := limit_length_le (cleanOnce css)
      obtain ⟨others, rfl⟩ := Nat.exists_eq_succ_of_ne_zero (show passes ≠ 0 by omega)
      rw [Function.iterate_succ_apply]
      exact induction (by omega)

/-- A text settles within a number of passes if those before the last one reach its limit. -/
theorem settle?_succ_eq (passes : Nat) (css : Text) :
    settle? (passes + 1) css =
      if cleanOnce^[passes] css = limit css then some (limit css) else none := by
  induction passes generalizing css with
  | zero =>
      rw [settle?, Function.iterate_zero_apply]
      by_cases fixed : cleanOnce css = css
      · simp [fixed, limit_of_fixed fixed]
      · have further : ¬ css = limit css := fun same => fixed (limit_eq_self_iff.mp same.symm)
        simp [fixed, further, settle?]
  | succ passes induction =>
      rw [settle?]
      by_cases fixed : cleanOnce css = css
      · simp [fixed, limit_of_fixed fixed, Function.iterate_fixed fixed]
      · simp only [fixed, if_false]
        rw [induction, limit_cleanOnce, Function.iterate_succ_apply]

theorem clean_eq_ite (css : Text) :
    clean css = if cleanOnce^[passLimit - 1] css = limit css then limit css else [] := by
  have settled : settled? css =
      if cleanOnce^[passLimit - 1] css = limit css then some (limit css) else none := by
    rw [← limit_cleanOnce css]
    exact settle?_succ_eq (passLimit - 2) (cleanOnce css)
  rw [clean, settled]
  split <;> rfl

/-- Passes over a text come to rest at another one: once there were as many of them as
characters are lost, it stays what it is. -/
structure EndsAt (css rest : Text) : Prop where
  fixed : cleanOnce rest = rest
  reached : ∀ passes, css.length ≤ rest.length + passes → cleanOnce^[passes] css = rest

/-- A pass leaves a text as it is or leaves fewer characters of it, and so does each of its
steps.  Passes without a limit come to rest at one text therefore, and cleaning gives that text,
or nothing where the passes before the last one do not reach it. -/
theorem clean_endsAt_limit (css : Text) :
    (cleanOnce css = css ∨ (cleanOnce css).length < css.length) ∧
      (∀ step ∈ passSteps, step css = css ∨ (step css).length < css.length) ∧
        cleanOnce css = Text.applyAll passSteps css ∧
          EndsAt css (limit css) ∧
            (clean css ≠ [] → clean css = limit css) ∧
              clean css =
                if cleanOnce^[passLimit - 1] css = limit css then limit css else [] := by
  have chosen := clean_eq_ite css
  refine ⟨shrinks_cleanOnce css, fun step member => shrinks_passSteps step member css,
    cleanOnce_eq_applyAll css, ⟨cleanOnce_limit css, fun _ => iterate_cleanOnce_eq_limit⟩,
    ?_, chosen⟩
  intro nonempty
  by_cases reached : cleanOnce^[passLimit - 1] css = limit css
  · rw [chosen, if_pos reached]
  · rw [chosen, if_neg reached] at nonempty
    exact absurd rfl nonempty

example : clean "@im@im@im@import;port;port;port;x" = [] ∧
    cleanOnce^[passLimit] "@im@im@im@import;port;port;port;x" = "x" := by
  decide +kernel

end CleanSvg.Style
