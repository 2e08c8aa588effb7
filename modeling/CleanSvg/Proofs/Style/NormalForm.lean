import CleanSvg.Proofs.Pattern.Beginnings
import CleanSvg.Proofs.Style.Steps
import CleanSvg.Proofs.Text.CaseFold
import CleanSvg.Proofs.Text.Signs

/-!
# Clean style text

Style text is clean when no step of a pass finds anything to change in it.
Cleaning always ends in clean text, since it stops only at a text that a whole
pass leaves alone or at the empty one, and it leaves clean text alone, so the
clean texts are exactly its results.
-/

namespace CleanSvg.Style

/-- Style text in which there is nothing to change. -/
structure IsClean (css : Text) : Prop where
  noBackslash : '\\' ∉ css
  noComment : ¬ "/*".toList <:+: css
  noImport : importRule.occursIn css = false
  noExpression : expressionCall.occursIn css = false
  noBinding : bindingDeclaration.occursIn css = false
  noBehavior : behaviorDeclaration.occursIn css = false
  noImageSet : imageSetOpening.occursIn css = false
  urlsAllowed : ∀ token ∈ urlToken.found css, isAllowedPayload token.value = true

theorem dropBackslashes_eq_self_iff {css : Text} :
    dropBackslashes css = css ↔ '\\' ∉ css := by
  rw [dropBackslashes, List.filter_eq_self]
  constructor
  · intro kept member
    exact absurd (kept '\\' member) (by decide)
  · intro absent character member
    refine bne_iff_ne.mpr ?_
    rintro rfl
    exact absent member

theorem escape_refuses {sign : Char} (differs : sign ≠ '\\') : escape.Refuses sign :=
  .orElse (.bind_left (.symbol differs)) (.bind_left (.symbol differs))

theorem decodeEscapes_append_of_not_mem
    {plain : Text} (absent : '\\' ∉ plain) (ahead : Text) :
    decodeEscapes (plain ++ ahead) = plain ++ decodeEscapes ahead := by
  refine Pattern.replaceAll_append_of_refuses (fun sign inside => escape_refuses ?_) _ ahead
  rintro rfl
  exact absent inside

theorem decodeEscapes_eq_self {css : Text} (absent : '\\' ∉ css) :
    decodeEscapes css = css := by
  simpa [decodeEscapes] using decodeEscapes_append_of_not_mem absent []

theorem read_signs_eq_some_iff
    {signs text : Text} {piece : Piece Unit}
    (noLetter : ∀ sign ∈ signs, Text.foldCase sign = sign ∧ ¬ ('a' ≤ sign ∧ sign ≤ 'z')) :
    (Pattern.keyword signs).read text = some piece ↔
      ∃ ahead, text = signs ++ ahead ∧ piece = ⟨(), signs, ahead⟩ := by
  simp [Pattern.read_keyword_eq_some_iff, Text.map_foldCase_eq_iff noLetter]

theorem commentOpening_read_iff {text : Text} {piece : Piece Unit} :
    (Pattern.keyword "/*").read text = some piece ↔
      ∃ ahead, text = "/*".toList ++ ahead ∧ piece = ⟨(), "/*".toList, ahead⟩ :=
  read_signs_eq_some_iff (forall_mem_of_all (by decide))

theorem comment_read_isSome_iff {text : Text} :
    (comment.read text).isSome = true ↔ "/*".toList <+: text := by
  rw [Option.isSome_iff_exists]
  constructor
  · rintro ⟨piece, read⟩
    obtain ⟨start, rest, foundStart, _, _⟩ := Pattern.read_bind_eq_some_iff.mp read
    obtain ⟨ahead, rfl, _⟩ := commentOpening_read_iff.mp foundStart
    exact List.prefix_append _ ahead
  · rintro ⟨ahead, rfl⟩
    have ends : ((Pattern.through (Pattern.keyword "*/" <|> Pattern.atEnd)).read
        ahead).isSome = true :=
      Pattern.read_through_isSome (by decide) ahead
    obtain ⟨body, closed⟩ := Option.isSome_iff_exists.mp ends
    exact ⟨_, Pattern.read_bind_eq_some_iff.mpr
      ⟨_, body, commentOpening_read_iff.mpr ⟨ahead, rfl, rfl⟩, closed, rfl⟩⟩

theorem comment_occursIn_eq_false_iff {css : Text} :
    comment.occursIn css = false ↔ ¬ "/*".toList <:+: css := by
  rw [Pattern.occursIn_eq_false_iff, List.infix_iff_prefix_suffix]
  constructor
  · rintro refused ⟨rest, begins, inside⟩
    have reads := comment_read_isSome_iff.mpr begins
    rw [refused rest inside] at reads
    cases reads
  · intro absent rest inside
    refine Option.not_isSome_iff_eq_none.mp fun reads => ?_
    exact absent ⟨rest, comment_read_isSome_iff.mp reads, inside⟩

theorem disarmImageSets_eq_self_iff {css : Text} :
    disarmImageSets css = css ↔ imageSetOpening.occursIn css = false := by
  have takes : imageSetOpening.TakesAtLeast 1 :=
    .mono imageSetOpening_takesAtLeast (by decide)
  rw [disarmImageSets, Pattern.replaceAll_eq_self_iff shortens_imageSetOpening,
    ← Pattern.found_eq_nil_iff takes]
  constructor
  · intro kept
    refine List.eq_nil_iff_forall_not_mem.mpr ?_
    intro piece member
    obtain ⟨_, rest, _, read⟩ := Pattern.mem_found member
    have long := imageSetOpening_takesAtLeast rest piece read
    rw [← kept piece member] at long
    exact absurd long (by decide)
  · intro none
    rw [none]
    simp

theorem filterUrls_eq_self_iff {css : Text} :
    filterUrls css = css ↔
      ∀ token ∈ urlToken.found css, isAllowedPayload token.value = true := by
  rw [filterUrls, Pattern.replaceAll_eq_self_iff shortens_urlToken]
  refine forall₂_congr fun token member => ?_
  have progress := (Pattern.mem_found member).1
  by_cases allowed : isAllowedPayload token.value = true
  · simp [allowed]
  · simp [allowed, progress.symm]

/-- A pass leaves alone exactly the clean texts. -/
theorem cleanOnce_eq_self_iff_isClean {css : Text} :
    cleanOnce css = css ↔ IsClean css := by
  rw [cleanOnce_eq_self_iff]
  simp only [passSteps, List.forall_mem_cons, List.not_mem_nil, false_imp_iff,
    implies_true, and_true, dropBackslashes_eq_self_iff,
    Pattern.eraseAll_eq_self_iff comment_takesAtLeast, comment_occursIn_eq_false_iff,
    Pattern.eraseAll_eq_self_iff importRule_takesAtLeast,
    Pattern.eraseAll_eq_self_iff expressionCall_takesAtLeast,
    Pattern.eraseAll_eq_self_iff bindingDeclaration_takesAtLeast,
    Pattern.eraseAll_eq_self_iff behaviorDeclaration_takesAtLeast,
    disarmImageSets_eq_self_iff, filterUrls_eq_self_iff]
  constructor
  · rintro ⟨_, noBackslash, noComment, noImport, noExpression, noBinding,
      noBehavior, noImageSet, urlsAllowed⟩
    exact ⟨noBackslash, noComment, noImport, noExpression, noBinding, noBehavior,
      noImageSet, urlsAllowed⟩
  · intro clean
    exact ⟨decodeEscapes_eq_self clean.noBackslash, clean.noBackslash,
      clean.noComment, clean.noImport, clean.noExpression, clean.noBinding,
      clean.noBehavior, clean.noImageSet, clean.urlsAllowed⟩

theorem cleanOnce_of_settle?_eq_some
    {passes : Nat} {css settled : Text} (result : settle? passes css = some settled) :
    cleanOnce settled = settled := by
  induction passes generalizing css with
  | zero => cases result
  | succ passes induction =>
      rw [settle?] at result
      split at result
      · rename_i unchanged
        cases result
        exact unchanged
      · exact induction result

theorem settle?_length_le
    {passes : Nat} {css settled : Text} (result : settle? passes css = some settled) :
    settled.length ≤ css.length := by
  induction passes generalizing css with
  | zero => cases result
  | succ passes induction =>
      rw [settle?] at result
      split at result
      · cases result
        exact Nat.le_refl _
      · exact Nat.le_trans (induction result) (cleanOnce_length_le css)

theorem clean_length_le (css : Text) : (clean css).length ≤ css.length := by
  rw [clean]
  cases result : settled? css with
  | none => exact Nat.zero_le _
  | some settled => exact Nat.le_trans (settle?_length_le result) (cleanOnce_length_le css)

theorem isClean_nil : IsClean [] :=
  cleanOnce_eq_self_iff_isClean.mp (by decide +kernel)

theorem isClean_clean (css : Text) : IsClean (clean css) := by
  rw [clean]
  cases result : settled? css with
  | none => exact isClean_nil
  | some settled =>
      exact cleanOnce_eq_self_iff_isClean.mp (cleanOnce_of_settle?_eq_some result)

theorem isClean_of_fixed {css : Text} (fixed : clean css = css) : IsClean css := by
  rw [← fixed]
  exact isClean_clean css

theorem clean_eq_self {css : Text} (isClean : IsClean css) : clean css = css := by
  have unchanged := cleanOnce_eq_self_iff_isClean.mpr isClean
  rw [clean, settled?, unchanged]
  simp [passLimit, settle?, unchanged]

theorem clean_idem (css : Text) : clean (clean css) = clean css :=
  clean_eq_self (isClean_clean css)

/-- Cleaning ends in clean text and changes no clean text, so it changes nothing
the second time and its results are exactly the clean texts. -/
theorem clean_normalForm (css : Text) :
    IsClean (clean css) ∧ (clean css = css ↔ IsClean css) ∧
      clean (clean css) = clean css ∧
        ((∃ original, clean original = css) ↔ IsClean css) := by
  refine ⟨isClean_clean css, ⟨isClean_of_fixed, clean_eq_self⟩, clean_idem css, ?_, ?_⟩
  · rintro ⟨original, rfl⟩
    exact isClean_clean original
  · intro isClean
    exact ⟨css, clean_eq_self isClean⟩

end CleanSvg.Style
