import CleanSvg.Proofs.Pattern.Scan
import CleanSvg.Style.Clean

/-!
# The steps of a pass shorten

Every step of a pass over style text replaces what it finds by something
shorter: an escape by one character, the name of a choice among images by
nothing, a refused token by nothing.  The number of characters is the measure;
the number of bytes is not, since an escape can spell a character that takes
more bytes than the escape did.
-/

namespace CleanSvg.Style

theorem escape_takesAtLeast : escape.TakesAtLeast 2 :=
  .orElse
    (.bind (.symbol '\\') fun _ => .bind_left (.one isHexDigit))
    (.bind (.symbol '\\') fun _ => .one fun character => character != '\n')

theorem comment_takesAtLeast : comment.TakesAtLeast 1 :=
  .bind_left (.mono (.keyword "/*") (by decide))

theorem callOpening_takesAtLeast (name : Text) :
    (callOpening name).TakesAtLeast (name.length + 1) :=
  .bind (.keyword name) fun _ => .bind_right fun _ => .symbol '('

theorem closedCall_takesAtLeast (name : Text) : (closedCall name).TakesAtLeast 1 :=
  .bind_left (.mono (callOpening_takesAtLeast name) (by omega))

theorem declaration_takesAtLeast (property : Text) :
    (declaration property).TakesAtLeast 1 :=
  .bind_right fun _ => .bind_right fun _ => .bind_left (.symbol ':')

theorem expressionCall_takesAtLeast : expressionCall.TakesAtLeast 1 :=
  closedCall_takesAtLeast _

theorem bindingDeclaration_takesAtLeast : bindingDeclaration.TakesAtLeast 1 :=
  declaration_takesAtLeast _

theorem behaviorDeclaration_takesAtLeast : behaviorDeclaration.TakesAtLeast 1 :=
  declaration_takesAtLeast _

theorem importRule_takesAtLeast : importRule.TakesAtLeast 1 :=
  .bind_left (.mono (.keyword "@import") (by decide))

theorem imageSetOpening_takesAtLeast : imageSetOpening.TakesAtLeast 2 :=
  .bind_right fun _ => .mono (callOpening_takesAtLeast _) (by decide)

theorem urlToken_takesAtLeast : urlToken.TakesAtLeast 1 :=
  .bind_left (.mono (callOpening_takesAtLeast _) (by decide))

theorem shortens_escape : escape.Shortens fun piece => [piece.value] := by
  intro text piece read _
  exact Or.inr (escape_takesAtLeast text piece read)

theorem shortens_imageSetOpening : imageSetOpening.Shortens fun _ => ['('] := by
  intro text piece read _
  exact Or.inr (imageSetOpening_takesAtLeast text piece read)

theorem shortens_urlToken :
    urlToken.Shortens fun token =>
      if isAllowedPayload token.value then token.taken else [] := by
  intro text token _ progress
  by_cases allowed : isAllowedPayload token.value = true
  · exact Or.inl (if_pos allowed)
  · right
    simpa only [if_neg allowed, List.length_nil] using List.length_pos_iff.mpr progress

def dropBackslashes (css : Text) : Text :=
  css.filter fun character => character != '\\'

/-- The steps of one pass, in their order. -/
def passSteps : List (Text → Text) :=
  [decodeEscapes, dropBackslashes, comment.eraseAll, importRule.eraseAll,
    expressionCall.eraseAll, bindingDeclaration.eraseAll,
    behaviorDeclaration.eraseAll, disarmImageSets, filterUrls]

theorem cleanOnce_eq_applyAll (css : Text) :
    cleanOnce css = Text.applyAll passSteps css := rfl

theorem shrinks_passSteps : ∀ step ∈ passSteps, Shrinks step := by
  simp only [passSteps, List.forall_mem_cons]
  exact ⟨Pattern.shrinks_replaceAll shortens_escape,
    Shrinks.filter fun character => character != '\\',
    comment.shrinks_eraseAll,
    importRule.shrinks_eraseAll,
    expressionCall.shrinks_eraseAll,
    bindingDeclaration.shrinks_eraseAll,
    behaviorDeclaration.shrinks_eraseAll,
    Pattern.shrinks_replaceAll shortens_imageSetOpening,
    Pattern.shrinks_replaceAll shortens_urlToken,
    by simp⟩

theorem shrinks_cleanOnce : Shrinks cleanOnce :=
  Shrinks.applyAll shrinks_passSteps

-- bytes are no measure: the character that an escape spells can take more of them
example : Text.byteSize "\\0" = 2 ∧ Text.byteSize (cleanOnce "\\0") = 3 := by
  decide +kernel

theorem cleanOnce_length_le (css : Text) : (cleanOnce css).length ≤ css.length :=
  shrinks_cleanOnce.length_le css

/-- A pass changes nothing exactly if none of its steps does. -/
theorem cleanOnce_eq_self_iff {css : Text} :
    cleanOnce css = css ↔ ∀ step ∈ passSteps, step css = css := by
  rw [cleanOnce_eq_applyAll]
  exact Shrinks.applyAll_eq_self_iff shrinks_passSteps

end CleanSvg.Style
