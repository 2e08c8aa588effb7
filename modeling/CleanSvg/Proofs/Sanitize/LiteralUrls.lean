import CleanSvg.Proofs.Sanitize.FailClosed
import CleanSvg.Proofs.Style.PlainText
import CleanSvg.Proofs.Style.Tokens
import CleanSvg.Proofs.Text.Lowercase

/-!
# Openings of `url` in plain sight

Whether a value is style text is decided on its decoded form, and a value that is
not is written as it came.  An opening of `url` that is spelled out stands in both,
unless decoding has opened a comment in front of it that is not closed before it.
-/

namespace CleanSvg

namespace Style

theorem endsEscape_of_foldCase {character : Char} (folded : Text.foldCase character = 'u') :
    EndsEscape character := by
  have letter : character = 'u' ∨ character = 'U' := by
    unfold Text.foldCase at folded
    split at folded
    · exact absurd folded (by decide)
    · split at folded
      · exact absurd folded (by decide)
      · refine (Text.eq_or_toNat_of_toLower_eq folded).imp_right fun capital => ?_
        have code : character.toNat = 'U'.toNat := Nat.add_right_cancel capital
        exact Char.toNat_inj.mp code
  rcases letter with rfl | rfl
  · exact ⟨by decide, by decide, by decide⟩
  · exact ⟨by decide, by decide, by decide⟩

theorem urlOpening_begins
    {rest : Text} {opening : Piece Unit} (opens : urlOpening.read rest = some opening) :
    ∃ first others, opening.taken = first :: others ∧ Text.foldCase first = 'u' := by
  obtain ⟨spelling, blanks, _, folded, _, _, rfl⟩ := callOpening_read_iff.mp opens
  cases spelling with
  | nil => cases folded
  | cons first others => exact ⟨first, _, rfl, (List.cons.inj folded).1⟩

theorem isPlain_urlOpening
    {rest : Text} {opening : Piece Unit} (opens : urlOpening.read rest = some opening) :
    IsPlain opening.taken :=
  .of_not_mem
    (not_mem_callOpening opens (by decide) (by decide) (by decide))
    (not_mem_callOpening opens (by decide) (by decide) (by decide))

/-- Decoding leaves an opening where it is, whatever stands before it. -/
theorem unescaped_append_urlOpening
    {rest : Text} {opening : Piece Unit} (opens : urlOpening.read rest = some opening)
    (before : Text) :
    unescaped (before ++ rest) =
      unescaped before ++ (opening.taken ++ unescaped opening.ahead) := by
  have plain := isPlain_urlOpening opens
  obtain ⟨first, others, taken, folded⟩ := urlOpening_begins opens
  have split := urlOpening.splits opens
  rw [taken] at plain split ⊢
  rw [← split, List.cons_append, unescaped_append_cons (endsEscape_of_foldCase folded),
    unescaped_append_of_not_mem fun member => plain.noBackslash (List.mem_cons_of_mem _ member),
    List.cons_append]

theorem containsUrl_of_read
    {before rest : Text} {opening : Piece Unit} (opens : urlOpening.read rest = some opening)
    (closes : ClosesComments (unescaped before)) : containsUrl (before ++ rest) = true := by
  have apart : ¬ ['*'] <+: opening.taken ++ unescaped opening.ahead := by
    obtain ⟨first, others, taken, folded⟩ := urlOpening_begins opens
    rw [taken]
    rintro ⟨_, same⟩
    obtain ⟨rfl, _⟩ := List.cons.inj same
    exact absurd folded (by decide)
  rw [containsUrl, normalize_eq, unescaped_append_urlOpening opens,
    eraseAll_comment_append closes fun _ => apart,
    (isPlain_urlOpening opens).eraseAll_comment, Pattern.occursIn_iff]
  exact ⟨_, _, List.suffix_append _ _, callOpening_read_append opens _⟩

theorem unescaped_slash {ahead : Text} (plain : '\\' ∉ ahead) :
    unescaped ('\\' :: "2f".toList ++ ' ' :: ahead) = '/' :: ahead := by
  have digits : ∀ digit ∈ "2f".toList, isHexDigit digit = true := forall_mem_of_all (by decide)
  have read := escape_read_codePoint (by decide) (by decide) digits
    (by decide : Text.isBlank ' ' = true) ahead
  rw [unescaped_of_read read, unescaped, decodeEscapes_eq_self plain,
    dropBackslashes_eq_self_iff.mpr plain]
  rfl

end Style

theorem Text.stripInvisible_eq_self_of_lowercase
    {name : Text}
    (visible : ((Text.lowercase name).all fun character => !Text.isInvisible character) = true) :
    Text.stripInvisible name = name := by
  refine List.filter_eq_self.mpr fun character member => ?_
  rw [Bool.not_eq_true', Bool.eq_false_iff]
  intro invisible
  have kept := Text.mem_lowercase (Text.keepsCase_of_isInvisible invisible) member
  have seen := List.all_eq_true.mp visible character kept
  rw [invisible] at seen
  cases seen

/-- Only the value decides about the class of a name that is listed for its values. -/
theorem AttributeClass.classify_of_urlBearing
    {mode : Mode} {name : Text}
    (listed : Text.lowercase name ∈ mode.allowedAttributes)
    (bearing : Text.lowercase name ∈ Names.urlBearingAttributes) (value : Text) :
    classify mode name value =
      if Style.containsUrl value = true then .urlBearingPresentation else .knownAllowed := by
  have governed : Text.lowercase name ∈ governedNames := by
    simp only [governedNames, List.mem_cons, bearing, or_true]
  have plain : ∀ lower ∈ Names.urlBearingAttributes,
      ¬ "on".toList <+: lower ∧ (lower.all fun character => !Text.isInvisible character) = true :=
    forall_mem_of_all (by decide)
  obtain ⟨noHandler, visible⟩ := plain _ bearing
  have rule := classify_classified mode name value
  generalize classify mode name value = class_ at rule ⊢
  cases rule with
  | eventHandler handler =>
      rw [isEventHandlerName, Text.stripInvisible_eq_self_of_lowercase visible,
        List.isPrefixOf_iff_prefix] at handler
      exact absurd handler noHandler
  | dataOrAria _ begins => exact absurd governed begins.not_governed
  | disallowed _ _ unlisted => exact absurd listed unlisted
  | uri _ _ _ link => exact absurd bearing link.not_paint.2
  | style _ _ _ same =>
      rw [same] at bearing
      exact absurd bearing (by decide)
  | urlBearingPresentation _ _ _ _ opens => rw [if_pos opens]
  | knownAllowed _ _ _ _ _ plain =>
      rw [plain bearing]
      rfl

/-- A value that spells out an opening of `url` is filtered, unless decoding opens a comment
before it and does not close it there. -/
theorem Attribute.sanitize_of_literalUrl
    {name before rest : Text} {opening : Piece Unit}
    (listed : Text.lowercase name ∈ Mode.vectorGraphics.allowedAttributes)
    (bearing : Text.lowercase name ∈ Names.urlBearingAttributes)
    (opens : Style.urlOpening.read rest = some opening)
    (closes : Style.ClosesComments (Style.unescaped before)) (tag : Text) :
    AttributeClass.classify .vectorGraphics name (before ++ rest) = .urlBearingPresentation ∧
      (Attribute.sanitize .vectorGraphics tag ⟨name, before ++ rest⟩).value =
        some ⟨name, Style.clean (before ++ rest)⟩ := by
  have class_ := AttributeClass.classify_of_urlBearing listed bearing (before ++ rest)
  rw [if_pos (Style.containsUrl_of_read opens closes)] at class_
  refine ⟨class_, ?_⟩
  rw [Attribute.value_sanitize, Attribute.kept?, class_]

theorem fill_listed : "fill".toList ∈ Mode.vectorGraphics.allowedAttributes := by
  decide

theorem fill_bearing : "fill".toList ∈ Names.urlBearingAttributes := by
  decide

theorem slashedPaint_sanitize :
    let before : Text := '\\' :: "2f x".toList
    let rest : Text := "URL (//x)".toList
    AttributeClass.classify .vectorGraphics "FILL" (before ++ rest) = .urlBearingPresentation ∧
      (Attribute.sanitize .vectorGraphics "g" ⟨"FILL".toList, before ++ rest⟩).value =
        some ⟨"FILL".toList, Style.clean (before ++ rest)⟩ := by
  have lower : Text.lowercase "FILL".toList = "fill".toList := by decide
  have opens : Style.urlOpening.read "URL (//x)".toList =
      some ⟨(), "URL (".toList, "//x)".toList⟩ :=
    Style.callOpening_read_iff.mpr
      ⟨"URL".toList, " ".toList, "//x)".toList, by decide, forall_mem_of_all rfl, by decide, rfl⟩
  have decoded : Style.unescaped ('\\' :: "2f x".toList) = "/x".toList :=
    Style.unescaped_slash (by decide)
  have noComment : ¬ "/*".toList <:+: Style.unescaped ('\\' :: "2f x".toList) := by
    rw [decoded]
    decide
  exact Attribute.sanitize_of_literalUrl (by rw [lower]; exact fill_listed)
    (by rw [lower]; exact fill_bearing) opens (.of_unopened noComment) "g"

/-- Decoding hides an opening that is spelled out, and the value is written as it came. -/
theorem hiddenPaint_kept :
    let paint : Attribute := ⟨"fill".toList, '\\' :: "2f *url(//x)".toList⟩
    AttributeClass.classify .vectorGraphics paint.name paint.value = .knownAllowed ∧
      (paint.sanitize .vectorGraphics "g").value = some paint := by
  have lower : Text.lowercase "fill".toList = "fill".toList := by decide
  have hidden : Style.containsUrl ('\\' :: "2f *url(//x)".toList) = false := by
    have decoded : Style.unescaped ('\\' :: "2f *url(//x)".toList) = "/*url(//x)".toList :=
      Style.unescaped_slash (by decide)
    have opened : Style.comment.read "/*url(//x)".toList =
        some ⟨"url(//x)".toList, "/*url(//x)".toList, []⟩ := rfl
    rw [Style.containsUrl, Style.normalize_eq, decoded, Pattern.eraseAll,
      Pattern.replaceAll_of_read opened (by decide), Pattern.replaceAll_nil]
    rfl
  have class_ := @AttributeClass.classify_of_urlBearing .vectorGraphics "fill".toList
    (by rw [lower]; exact fill_listed) (by rw [lower]; exact fill_bearing)
    ('\\' :: "2f *url(//x)".toList)
  rw [hidden] at class_
  refine ⟨class_, ?_⟩
  rw [Attribute.value_sanitize, Attribute.kept?, class_]
  rfl

end CleanSvg
