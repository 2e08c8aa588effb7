import CleanSvg.Proofs.Sanitize.Acceptance
import CleanSvg.Proofs.Sanitize.Tree
import CleanSvg.Proofs.Style.NormalForm

/-!
# What is trusted in a cleaned document

Whatever a document held, every element that is written obeys the rules of the
place where it stands.  The rules are stated here for what is left and not for
what was read, so values that were rewritten on the way obey them as well.
-/

namespace CleanSvg

/-- What an attribute has to be where a mode governs. -/
structure Attribute.Trusted (mode : Mode) (tag : Text) (kept : Attribute) : Prop where
  listed : HasOpenPrefix kept.name ∨ Text.lowercase kept.name ∈ mode.allowedAttributes
  noHandler : ¬ "on".toList <+: Text.lowercase (Text.stripInvisible kept.name)
  graphicLink : IsLinkName kept.name → mode = .vectorGraphics →
    (LinkContext.ofTag tag).accepts (Text.stripInvisible kept.value) = true
  embeddedLink : IsLinkName kept.name → mode = .embeddedDocument →
    Text.lowercase kept.name = "href" ∧ tag = Names.anchor ∧ Link.isSafe kept.value = true
  styleText : Text.lowercase kept.name = "style" → Style.clean kept.value = kept.value
  paintText : Text.lowercase kept.name ∈ Names.urlBearingAttributes →
    Style.containsUrl kept.value = true → Style.clean kept.value = kept.value

/-- No elements, and at most one text, which is clean. -/
def Content.IsStylesheet (content : Content) : Prop :=
  content.nodes = [] ∨ ∃ css, content.nodes = [.text css] ∧ Style.clean css = css

/-- What an element has to be where a mode governs. -/
structure Element.Trusted (mode : Mode) (element : Element) : Prop where
  admitted : mode.Admits element.tag
  attributes : ∀ kept ∈ element.attributes, kept.Trusted mode element.tag
  stylesheet : element.tag = Names.style → element.content.IsStylesheet
  animation : element.tag ∈ Names.animationElements →
    Animation.isDangerous element.attributes = false

/-- Names whose values the rules look at. -/
def governedNames : List Text :=
  "href" :: "xlink:href" :: "style" :: Names.urlBearingAttributes

theorem HasOpenPrefix.not_governed
    {name : Text} (begins : HasOpenPrefix name) :
    Text.lowercase name ∉ governedNames := by
  have apart : ∀ governed ∈ governedNames,
      ¬ ("data-".toList <+: governed ∨ "aria-".toList <+: governed) := by decide
  intro governed
  exact apart _ governed begins

theorem IsLinkName.not_paint
    {name : Text} (link : IsLinkName name) :
    Text.lowercase name ≠ "style" ∧ Text.lowercase name ∉ Names.urlBearingAttributes := by
  rcases link with same | same
  · rw [same]
    decide
  · rw [same]
    decide

theorem not_handler_iff {name : Text} :
    AttributeClass.isEventHandlerName name = false ↔
      ¬ "on".toList <+: Text.lowercase (Text.stripInvisible name) := by
  rw [AttributeClass.isEventHandlerName, ← Bool.not_eq_true, List.isPrefixOf_iff_prefix]

theorem Attribute.Trusted.of_not_governed
    {mode : Mode} {tag : Text} {kept : Attribute}
    (listed : HasOpenPrefix kept.name ∨ Text.lowercase kept.name ∈ mode.allowedAttributes)
    (notHandler : AttributeClass.isEventHandlerName kept.name = false)
    (noLink : ¬ IsLinkName kept.name) (noStyle : Text.lowercase kept.name ≠ "style")
    (plain : Text.lowercase kept.name ∈ Names.urlBearingAttributes →
      Style.containsUrl kept.value = false) :
    kept.Trusted mode tag where
  listed := listed
  noHandler := not_handler_iff.mp notHandler
  graphicLink link := absurd link noLink
  embeddedLink link := absurd link noLink
  styleText same := absurd same noStyle
  paintText bearing opens := by
    rw [plain bearing] at opens
    cases opens

theorem Attribute.Trusted.of_link
    {mode : Mode} {tag : Text} {kept : Attribute}
    (listed : Text.lowercase kept.name ∈ mode.allowedAttributes)
    (notHandler : AttributeClass.isEventHandlerName kept.name = false)
    (link : IsLinkName kept.name) (allowed : Link.isAllowed mode tag kept.value = true) :
    kept.Trusted mode tag where
  listed := Or.inr listed
  noHandler := not_handler_iff.mp notHandler
  graphicLink _ graphic := by
    subst graphic
    simpa [Link.isAllowed, Link.accepted?] using allowed
  embeddedLink _ embedded := by
    subst embedded
    obtain ⟨anchor, safe⟩ := Bool.and_eq_true_iff.mp allowed
    refine ⟨link.resolve_right ?_, eq_of_beq anchor, safe⟩
    intro same
    rw [same] at listed
    exact absurd listed (by decide)
  styleText same := absurd same link.not_paint.1
  paintText bearing := absurd bearing link.not_paint.2

theorem Attribute.Trusted.of_cleaned
    {mode : Mode} {tag name value : Text}
    (listed : Text.lowercase name ∈ mode.allowedAttributes)
    (notHandler : AttributeClass.isEventHandlerName name = false)
    (noLink : ¬ IsLinkName name) :
    (Attribute.mk name (Style.clean value)).Trusted mode tag where
  listed := Or.inr listed
  noHandler := not_handler_iff.mp notHandler
  graphicLink link := absurd link noLink
  embeddedLink link := absurd link noLink
  styleText _ := Style.clean_idem value
  paintText _ _ := Style.clean_idem value

theorem Attribute.Trusted.of_kept?
    {mode : Mode} {tag : Text} {candidate kept : Attribute}
    (left : candidate.kept? mode tag = some kept) : kept.Trusted mode tag := by
  have classified :=
    AttributeClass.classify_classified mode candidate.name candidate.value
  rw [Attribute.kept?] at left
  generalize AttributeClass.classify mode candidate.name candidate.value = class_
    at classified left
  cases classified with
  | eventHandler | disallowed => cases left
  | dataOrAria notHandler begins =>
      cases left
      have free := begins.not_governed
      simp only [governedNames, List.mem_cons, not_or] at free
      obtain ⟨noHref, noXlink, noStyle, noPaint⟩ := free
      exact .of_not_governed (Or.inl begins) notHandler
        (not_or.mpr ⟨noHref, noXlink⟩) noStyle fun paint => absurd paint noPaint
  | knownAllowed notHandler _ listed noLink noStyle plain =>
      cases left
      exact .of_not_governed (Or.inr listed) notHandler noLink noStyle plain
  | uri notHandler _ listed link =>
      simp only [Option.ite_none_right_eq_some, Option.some.injEq] at left
      obtain ⟨allowed, rfl⟩ := left
      exact .of_link listed notHandler link allowed
  | style notHandler _ listed same =>
      cases left
      refine .of_cleaned listed notHandler fun link => ?_
      exact link.not_paint.1 same
  | urlBearingPresentation notHandler _ listed bearing _ =>
      cases left
      refine .of_cleaned listed notHandler fun link => ?_
      exact link.not_paint.2 bearing

theorem Attribute.trusted_of_filterMap
    {mode : Mode} {tag : Text} {attributes : List Attribute} :
    ∀ attr ∈ attributes.filterMap (kept? mode tag), attr.Trusted mode tag := by
  intro attr member
  obtain ⟨candidate, _, left⟩ := List.mem_filterMap.mp member
  exact .of_kept? left

theorem Content.isStylesheet_ofText_clean (css : Text) :
    (Content.ofText (Style.clean css)).IsStylesheet := by
  rw [IsStylesheet, nodes_ofText]
  by_cases nothing : Style.clean css = []
  · exact Or.inl (if_pos nothing)
  · exact Or.inr ⟨Style.clean css, if_neg nothing, Style.clean_idem css⟩

/-- Removing and rewriting attributes makes no animation dangerous, since the name of the
attribute that it changes is kept as it was. -/
theorem Animation.isDangerous_kept
    {mode : Mode} {tag : Text} {attributes : List Attribute}
    (harmless : isDangerous attributes = false) :
    isDangerous (attributes.filterMap (Attribute.kept? mode tag)) = false := by
  rw [isDangerous, List.any_eq_false] at harmless ⊢
  intro kept member
  obtain ⟨candidate, inside, left⟩ := List.mem_filterMap.mp member
  obtain ⟨sameName, sameValue | ⟨_, paint⟩⟩ := Attribute.kept?_eq_some left
  · rw [sameName, sameValue]
    exact harmless candidate inside
  · have apart : "attributename".toList ∉
        "style".toList :: Names.urlBearingAttributes := by decide
    intro dangerous
    obtain ⟨target, _⟩ := Bool.and_eq_true_iff.mp dangerous
    rw [← eq_of_beq target, sameName] at apart
    exact apart (List.mem_cons.mpr paint)

theorem Element.Trusted.of_kept?
    {mode : Mode} {original kept : Element}
    (left : original.kept? mode = some kept) : kept.Trusted mode := by
  have founded := Treatment.ofElement_founded mode original.tag original.attributes
  rw [Element.kept?] at left
  generalize Treatment.ofElement mode original.tag original.attributes = treatment
    at founded left
  cases founded with
  | remove => cases left
  | keep _ admitted noStyle harmless =>
      cases left
      exact ⟨admitted, Attribute.trusted_of_filterMap, fun same => absurd same noStyle,
        fun animated => Animation.isDangerous_kept (harmless animated)⟩
  | restyle admitted same =>
      cases left
      refine ⟨admitted, Attribute.trusted_of_filterMap,
        fun _ => Content.isStylesheet_ofText_clean _, ?_⟩
      intro animated
      change original.tag ∈ Names.animationElements at animated
      rw [same] at animated
      exact absurd animated (by decide)

/-- Every element that is written for an accepted document obeys the rules of its place. -/
theorem sanitizeWithin_failClosed
    {limit : Option Nat} {text : Text} {sanitized : Sanitized}
    (accepted : sanitizeWithin limit text = .ok sanitized) :
    ∃ parsed, Element.parse text = .ok parsed ∧
      sanitized.svg = parsed.sanitize.value.written ∧
      parsed.sanitize.value.tag = Names.root ∧
      ∀ mode node, Within parsed.sanitize.value mode node → node.Trusted mode := by
  obtain ⟨_, parsed, accepted⟩ := sanitizeWithin_eq_ok_iff.mp accepted
  refine ⟨parsed, accepted.read, accepted.written, accepted.isRoot, ?_⟩
  intro mode node within
  obtain ⟨original, _, left⟩ := within.original accepted.isRoot
  exact Element.Trusted.of_kept? left

/-- A document with a handler, a link, a stylesheet and an embedded document. -/
def mixedDocument : Text :=
  "<svg onload='f()'><style>a\\62</style><foreignObject><a href='https:x'/></foreignObject>".toList ++
    "<animate attributeName='onclick'/></svg>".toList

theorem mixedDocument_trusted :
    sanitizeWithin (some 200) mixedDocument = .ok
      ⟨"<svg><style>ab</style><foreignObject><a href=\"https:x\"/></foreignObject></svg>",
        ⟨1, 1, 1⟩⟩ ∧
      ∃ parsed, Element.parse mixedDocument = .ok parsed ∧
        "<svg><style>ab</style><foreignObject><a href=\"https:x\"/></foreignObject></svg>" =
          parsed.sanitize.value.written ∧
        parsed.sanitize.value.tag = Names.root ∧
        ∀ mode node, Within parsed.sanitize.value mode node → node.Trusted mode := by
  have accepted : sanitizeWithin (some 200) mixedDocument = .ok
      ⟨"<svg><style>ab</style><foreignObject><a href=\"https:x\"/></foreignObject></svg>",
        ⟨1, 1, 1⟩⟩ := by decide +kernel
  exact ⟨accepted, sanitizeWithin_failClosed accepted⟩

end CleanSvg
