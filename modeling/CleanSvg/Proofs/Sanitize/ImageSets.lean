import CleanSvg.Proofs.Sanitize.LiteralUrls

/-!
# Choices among images

A choice among images fetches plain strings, so a pass takes its name off wherever
style text is cleaned.  Whether the value of a presentation attribute is cleaned is
decided by openings of `url` alone.  What is written is therefore free of choices
among images but for one place: values that have no opening of `url`.
-/

namespace CleanSvg

namespace Style

/-- Whether a value holds the opening of a choice among images once it is normalized. -/
def choosesImages (value : Text) : Bool :=
  imageSetOpening.occursIn (normalize value)

theorem choosesImages_eq_false {css : Text} (isClean : IsClean css) :
    choosesImages css = false := by
  rw [choosesImages, normalize_eq_self isClean.noBackslash isClean.noComment]
  exact isClean.noImageSet

theorem choosesImages_of_fixed {css : Text} (fixed : clean css = css) :
    choosesImages css = false :=
  choosesImages_eq_false (isClean_of_fixed fixed)

end Style

theorem Content.IsStylesheet.textContent_fixed
    {content : Content} (stylesheet : content.IsStylesheet) :
    Style.clean content.textContent = content.textContent := by
  rw [← Content.ofNodes_nodes content]
  rcases stylesheet with vacant | ⟨css, single, fixed⟩
  · rw [vacant]
    exact Style.clean_eq_self Style.isClean_nil
  · have whole : (Content.ofNodes [.text css]).textContent = css := List.append_nil css
    rw [single, whole]
    exact fixed

theorem Attribute.Trusted.listed_of_bearing
    {mode : Mode} {tag : Text} {kept : Attribute} (trusted : kept.Trusted mode tag)
    (bearing : Text.lowercase kept.name ∈ Names.urlBearingAttributes) :
    Text.lowercase kept.name ∈ mode.allowedAttributes := by
  rcases trusted.listed with begins | listed
  · have governed : Text.lowercase kept.name ∈ governedNames := by
      simp only [governedNames, List.mem_cons, bearing, or_true]
    exact absurd governed begins.not_governed
  · exact listed

/-- A value that may point somewhere is cleaned if it has an opening of `url`, and kept as it
is if it has none. -/
theorem Attribute.kept?_of_urlBearing
    {mode : Mode} {candidate : Attribute}
    (listed : Text.lowercase candidate.name ∈ mode.allowedAttributes)
    (bearing : Text.lowercase candidate.name ∈ Names.urlBearingAttributes) (tag : Text) :
    candidate.kept? mode tag =
      if Style.containsUrl candidate.value = true then
        some { candidate with value := Style.clean candidate.value }
      else some candidate := by
  have class_ := AttributeClass.classify_of_urlBearing listed bearing candidate.value
  rw [Attribute.kept?, class_]
  by_cases opens : Style.containsUrl candidate.value = true
  · rw [if_pos opens, if_pos opens]
  · rw [if_neg opens, if_neg opens]

/-- Where the value of an attribute may point somewhere, a choice among images is kept exactly
if it was there and no opening of `url` was. -/
theorem Attribute.mem_kept_choosing_iff
    {mode : Mode} {tag : Text} {originals : List Attribute} {attr : Attribute}
    (bearing : Text.lowercase attr.name ∈ Names.urlBearingAttributes) :
    attr ∈ originals.filterMap (Attribute.kept? mode tag) ∧
        Style.choosesImages attr.value = true ↔
      attr ∈ originals ∧ Text.lowercase attr.name ∈ mode.allowedAttributes ∧
        Style.containsUrl attr.value = false ∧ Style.choosesImages attr.value = true := by
  constructor
  · rintro ⟨member, chooses⟩
    have trusted : attr.Trusted mode tag := Attribute.trusted_of_filterMap attr member
    have listed := trusted.listed_of_bearing bearing
    have noUrl : Style.containsUrl attr.value = false := by
      apply Bool.eq_false_iff.mpr
      intro opens
      have fixed := trusted.paintText bearing opens
      rw [Style.choosesImages_of_fixed fixed] at chooses
      cases chooses
    obtain ⟨candidate, inside, left⟩ := List.mem_filterMap.mp member
    have sameName : attr.name = candidate.name := (Attribute.kept?_eq_some left).1
    rw [sameName] at bearing listed
    rw [Attribute.kept?_of_urlBearing listed bearing] at left
    split at left
    · cases left
      rw [Style.choosesImages_of_fixed (Style.clean_idem candidate.value)] at chooses
      cases chooses
    · cases left
      exact ⟨inside, listed, noUrl, chooses⟩
  · rintro ⟨inside, listed, noUrl, chooses⟩
    refine ⟨List.mem_filterMap.mpr ⟨attr, inside, ?_⟩, chooses⟩
    rw [Attribute.kept?_of_urlBearing listed bearing, noUrl]
    rfl

/-- Where choices among images are left in an element, by what it was before. -/
structure Element.ChoicesLeft (mode : Mode) (original kept : Element) : Prop where
  stylesheet : kept.tag = Names.style → Style.choosesImages kept.textContent = false
  styleText : ∀ attr ∈ kept.attributes, Text.lowercase attr.name = "style" →
    Style.choosesImages attr.value = false
  paintText : ∀ attr, Text.lowercase attr.name ∈ Names.urlBearingAttributes →
    (attr ∈ kept.attributes ∧ Style.choosesImages attr.value = true ↔
      attr ∈ original.attributes ∧ Text.lowercase attr.name ∈ mode.allowedAttributes ∧
        Style.containsUrl attr.value = false ∧ Style.choosesImages attr.value = true)

theorem Element.ChoicesLeft.of_kept?
    {mode : Mode} {original kept : Element} (left : original.kept? mode = some kept) :
    original.ChoicesLeft mode kept where
  stylesheet same := by
    apply Style.choosesImages_of_fixed
    exact ((Element.Trusted.of_kept? left).stylesheet same).textContent_fixed
  styleText attr member same := by
    apply Style.choosesImages_of_fixed
    exact ((Element.Trusted.of_kept? left).attributes attr member).styleText same
  paintText attr bearing := by
    rw [(Element.kept?_eq_some left).2]
    exact Attribute.mem_kept_choosing_iff bearing

/-- No stylesheet and no style attribute of an accepted document is written with a choice among
images.  A value that may point somewhere is written with one exactly if the element was read
with that very value, and the value has no opening of `url`. -/
theorem sanitizeWithin_imageSets
    {limit : Option Nat} {text : Text} {sanitized : Sanitized}
    (accepted : sanitizeWithin limit text = .ok sanitized) :
    ∃ parsed, Element.parse text = .ok parsed ∧
      sanitized.svg = parsed.sanitize.value.written ∧
      ∀ mode kept, Within parsed.sanitize.value mode kept →
        ∃ original, Within parsed mode original ∧ original.kept? mode = some kept ∧
          original.ChoicesLeft mode kept := by
  obtain ⟨_, parsed, accepted⟩ := sanitizeWithin_eq_ok_iff.mp accepted
  refine ⟨parsed, accepted.read, accepted.written, ?_⟩
  intro mode kept within
  obtain ⟨original, place, left⟩ := within.original accepted.isRoot
  exact ⟨original, place, left, .of_kept? left⟩

/-- Choices among images in a style attribute and in a mask. -/
def imageChoiceDocument : Text :=
  "<svg><g style='image-\\73 et(a' mask='Image-Set(b'/></svg>"

/-- The document as it is written: the name is gone in one of the two places. -/
def imageChoiceWritten : Text :=
  "<svg><g style=\"(a\" mask=\"Image-Set(b\"/></svg>"

theorem imageChoiceDocument_written :
    sanitizeWithin none imageChoiceDocument = .ok ⟨imageChoiceWritten, ⟨0, 0, 1⟩⟩ ∧
      ∃ parsed, Element.parse imageChoiceDocument = .ok parsed ∧
        imageChoiceWritten = parsed.sanitize.value.written ∧
        ∀ mode kept, Within parsed.sanitize.value mode kept →
          ∃ original, Within parsed mode original ∧ original.kept? mode = some kept ∧
            original.ChoicesLeft mode kept := by
  have accepted : sanitizeWithin none imageChoiceDocument =
      .ok ⟨imageChoiceWritten, ⟨0, 0, 1⟩⟩ := by decide +kernel
  exact ⟨accepted, sanitizeWithin_imageSets accepted⟩

/-- A mask that chooses among images, with no opening of `url`. -/
def imageMaskDocument : Text :=
  "<svg><g mask=\"image-set(//x)\"/></svg>"

theorem imageMaskDocument_kept :
    sanitizeDocument imageMaskDocument = .ok ⟨imageMaskDocument, Report.zero⟩ ∧
      Style.choosesImages "image-set(//x)" = true := by
  decide +kernel

end CleanSvg
