import CleanSvg.Proofs.Sanitize.FailClosed

/-!
# Trees that cleaning leaves alone

What cleaning keeps of a tree obeys the rules of its place, and what obeys them
is kept as it is.  So a cleaned tree is settled: cleaning it again changes
nothing and notes nothing, not even that style text was looked at.
-/

namespace CleanSvg

theorem Journaled.pure_bind {α β : Type} (value : α) (next : α → Journaled β) :
    (pure value >>= next) = next value := by
  show Journaled.mk (next value).value ((next value).latestFirst ++ []) = next value
  rw [List.append_nil]

theorem Style.cleanNoting_of_fixed {css : Text} (fixed : Style.clean css = css) :
    Style.cleanNoting css = pure css := by
  have unchanged : Style.cleanOnce css = css :=
    Style.cleanOnce_eq_self_iff_isClean.mpr (Style.isClean_of_fixed fixed)
  have settled : Style.settled? css = some css := by
    simp [Style.settled?, Style.passLimit, Style.settle?, unchanged]
  rw [Style.cleanNoting, settled]

namespace Attribute

theorem Trusted.link_allowed
    {mode : Mode} {tag : Text} {kept : Attribute} (trusted : kept.Trusted mode tag)
    (link : IsLinkName kept.name) : Link.isAllowed mode tag kept.value = true := by
  cases mode with
  | vectorGraphics =>
      have accepted := trusted.graphicLink link rfl
      simpa [Link.isAllowed, Link.accepted?] using accepted
  | embeddedDocument =>
      obtain ⟨_, anchor, safe⟩ := trusted.embeddedLink link rfl
      rw [Link.isAllowed, anchor, beq_self_eq_true, Bool.true_and]
      exact safe

/-- An attribute is kept as it is exactly if it obeys the rules of its place. -/
theorem kept?_eq_self_iff {mode : Mode} {tag : Text} {attr : Attribute} :
    attr.kept? mode tag = some attr ↔ attr.Trusted mode tag := by
  constructor
  · exact Trusted.of_kept?
  · intro trusted
    have classified := AttributeClass.classify_classified mode attr.name attr.value
    rw [kept?]
    generalize AttributeClass.classify mode attr.name attr.value = class_ at classified
    cases classified with
    | eventHandler handler =>
        rw [not_handler_iff.mpr trusted.noHandler] at handler
        cases handler
    | disallowed _ closed unlisted =>
        exact absurd trusted.listed (not_or.mpr ⟨closed, unlisted⟩)
    | dataOrAria | knownAllowed => rfl
    | uri _ _ _ link => exact if_pos (trusted.link_allowed link)
    | style _ _ _ same => simp only [trusted.styleText same]
    | urlBearingPresentation _ _ _ bearing opens =>
        simp only [trusted.paintText bearing opens]

theorem sanitize_of_trusted
    {mode : Mode} {tag : Text} {attr : Attribute} (trusted : attr.Trusted mode tag) :
    attr.sanitize mode tag = pure (some attr) := by
  have same := kept?_eq_self_iff.mpr trusted
  rw [kept?] at same
  rw [sanitize]
  cases class_ : AttributeClass.classify mode attr.name attr.value with
  | eventHandler | disallowed =>
      rw [class_] at same
      cases same
  | dataOrAria | knownAllowed => rfl
  | uri =>
      rw [class_] at same
      simp only [Option.ite_none_right_eq_some] at same
      exact if_pos same.1
  | style | urlBearingPresentation =>
      rw [class_] at same
      have fixed : Style.clean attr.value = attr.value :=
        congrArg value (Option.some.inj same)
      simp only [Style.cleanNoting_of_fixed fixed, Journaled.pure_bind, if_true]

theorem sanitizeAll_of_trusted
    {mode : Mode} {tag : Text} {attributes : List Attribute}
    (trusted : ∀ attr ∈ attributes, attr.Trusted mode tag) :
    sanitizeAll mode tag attributes = pure attributes := by
  induction attributes with
  | nil => rfl
  | cons attr attributes induction =>
      obtain ⟨first, others⟩ := List.forall_mem_cons.mp trusted
      rw [sanitizeAll, sanitize_of_trusted first, induction others,
        Journaled.pure_bind, Journaled.pure_bind]
      rfl

end Attribute

/-- Removing and rewriting attributes does not change how an element is treated, unless the
element goes. -/
theorem Treatment.ofElement_kept
    {mode : Mode} {tag : Text} {attributes : List Attribute} {treatment : Treatment}
    (given : ofElement mode tag attributes = treatment) (stays : treatment ≠ .remove) :
    ofElement mode tag (attributes.filterMap (Attribute.kept? mode tag)) = treatment := by
  subst given
  cases mode with
  | embeddedDocument => rfl
  | vectorGraphics =>
      unfold ofElement at stays ⊢
      simp only at stays ⊢
      by_cases embedding : tag = Names.embeddingElement
      · rw [if_pos embedding, if_pos embedding]
      · rw [if_neg embedding] at stays ⊢
        rw [if_neg embedding]
        by_cases isStyle : tag = Names.style
        · rw [if_pos isStyle, if_pos isStyle]
        · rw [if_neg isStyle] at stays ⊢
          rw [if_neg isStyle]
          cases animated : Names.animationElements.contains tag with
          | false => rfl
          | true =>
              cases dangerous : Animation.isDangerous attributes with
              | false => rw [Animation.isDangerous_kept dangerous]
              | true =>
                  rw [animated, dangerous] at stays
                  exact absurd rfl stays

namespace Content

/-- Content in which there is nothing to clean where a mode governs. -/
inductive Settled : Mode → Content → Prop where
  | empty {mode : Mode} : Settled mode .empty
  | text {mode : Mode} {characters : Text} {after : Content} (behind : Settled mode after) :
      Settled mode (.text characters after)
  | keep {mode inside : Mode} {name : Text} {attributes : List Attribute}
      {inner after : Content}
      (treatment : Treatment.ofElement mode (Text.lowercase name) attributes = .keep inside)
      (trusted : ∀ attr ∈ attributes, attr.Trusted mode (Text.lowercase name))
      (within : Settled inside inner) (behind : Settled mode after) :
      Settled mode (.element name attributes inner after)
  | restyle {mode : Mode} {name css : Text} {attributes : List Attribute} {after : Content}
      (treatment : Treatment.ofElement mode (Text.lowercase name) attributes = .restyle)
      (trusted : ∀ attr ∈ attributes, attr.Trusted mode (Text.lowercase name))
      (fixed : Style.clean css = css) (behind : Settled mode after) :
      Settled mode (.element name attributes (.ofText css) after)

theorem textContent_ofText (css : Text) : (ofText css).textContent = css := by
  cases css with
  | nil => rfl
  | cons character css => exact List.append_nil _

theorem restyle_of_fixed {css : Text} (fixed : Style.clean css = css) :
    (ofText css).restyle = pure (ofText css) := by
  rw [restyle, textContent_ofText, Style.cleanNoting_of_fixed fixed, Journaled.pure_bind,
    elements_ofText, if_pos ⟨rfl, rfl⟩]

/-- Cleaning leaves settled content alone and notes nothing. -/
theorem Settled.sanitize_eq
    {mode : Mode} {content : Content} (settled : content.Settled mode) :
    content.sanitize mode = pure content := by
  induction settled with
  | empty => rfl
  | text _ induction => rw [sanitize, induction, Journaled.pure_bind]
  | keep treatment trusted _ _ within behind =>
      simp only [sanitize, behind, treatment, within, Attribute.sanitizeAll_of_trusted trusted,
        Journaled.pure_bind]
  | restyle treatment trusted fixed _ behind =>
      simp only [sanitize, behind, treatment, restyle_of_fixed fixed,
        Attribute.sanitizeAll_of_trusted trusted, Journaled.pure_bind]

theorem settled_sanitize (mode : Mode) (content : Content) :
    (content.sanitize mode).value.Settled mode := by
  induction content generalizing mode with
  | empty => exact .empty
  | text characters after induction => exact .text (induction mode)
  | element name attributes inner after within behind =>
      rw [sanitize, Journaled.value_bind]
      cases given : Treatment.ofElement mode (Text.lowercase name) attributes with
      | remove =>
          simp only [given, Journaled.value_bind, Journaled.value_pure]
          exact behind mode
      | keep inside =>
          simp only [given, Journaled.value_bind, Journaled.value_pure,
            Attribute.value_sanitizeAll]
          exact .keep (Treatment.ofElement_kept given (by simp)) Attribute.trusted_of_filterMap
            (within inside) (behind mode)
      | restyle =>
          simp only [given, Journaled.value_bind, Journaled.value_pure,
            Attribute.value_sanitizeAll, value_restyle]
          exact .restyle (Treatment.ofElement_kept given (by simp)) Attribute.trusted_of_filterMap
            (Style.clean_idem inner.textContent) (behind mode)

end Content

namespace Element

/-- A root in which there is nothing to clean. -/
structure Settled (root : Element) : Prop where
  attributes : ∀ attr ∈ root.attributes, attr.Trusted .vectorGraphics root.tag
  content : root.content.Settled .vectorGraphics

theorem Settled.sanitize_eq {root : Element} (settled : root.Settled) :
    root.sanitize = pure root := by
  rw [sanitize, sanitizeAttributes, Attribute.sanitizeAll_of_trusted settled.attributes,
    Journaled.pure_bind, Journaled.pure_bind, settled.content.sanitize_eq,
    Journaled.pure_bind]

theorem settled_sanitize (root : Element) : root.sanitize.value.Settled where
  attributes := by
    rw [attributes_sanitize]
    exact Attribute.trusted_of_filterMap
  content := by
    rw [content_sanitize]
    exact Content.settled_sanitize .vectorGraphics root.content

/-- Cleaning an accepted tree again accepts it again, with a clean report, and leaves every
part of it as it was. -/
theorem sanitizeTree_idem
    {root : Element} {report : Report} (accepted : root.sanitizeTree.verdict = .ok report) :
    ∃ again, again.isClean = true ∧
      root.sanitizeTree.root.sanitizeTree = ⟨root.sanitizeTree.root, [], .ok again⟩ := by
  obtain ⟨isRoot, inhabited, _⟩ := verdict_sanitizeTree_eq_ok_iff.mp accepted
  have sameRoot : root.sanitize.value.tag = Names.root := isRoot
  have nonempty : root.sanitize.value.childElements.isEmpty = false := by
    rw [← Bool.not_eq_true, List.isEmpty_iff]
    exact inhabited
  refine ⟨.zero, rfl, ?_⟩
  rw [root_sanitizeTree isRoot, sanitizeTree, if_neg (not_not_intro sameRoot),
    (settled_sanitize root).sanitize_eq]
  simp [nonempty, Report.ofChanges]

end Element

/-- A graphic with a handler, a paint that leads outside, style text in two pieces and an
animation of a link. -/
def untidyTree : Element :=
  ⟨"SVG", [⟨"onload", "f()"⟩],
    .element "style" [] (.text "a\x7b\\62" (.element "b" [] (.text "\x7d" .empty) .empty))
      (.element "rect" [⟨"fill", "u\\72 l(x)"⟩] .empty
        (.text [] (.element "set" [⟨"attributeName", "x:href"⟩] .empty .empty)))⟩

theorem untidyTree_idem :
    untidyTree.sanitizeTree.verdict = .ok ⟨1, 1, 2⟩ ∧
      ∃ again, again.isClean = true ∧
        untidyTree.sanitizeTree.root.sanitizeTree =
          ⟨untidyTree.sanitizeTree.root, [], .ok again⟩ := by
  have accepted : untidyTree.sanitizeTree.verdict = .ok ⟨1, 1, 2⟩ := by decide +kernel
  exact ⟨accepted, Element.sanitizeTree_idem accepted⟩

end CleanSvg
