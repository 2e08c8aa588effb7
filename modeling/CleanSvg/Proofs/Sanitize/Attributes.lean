import CleanSvg.Sanitize.Attributes

/-!
# What is left of attributes

The class of an attribute is settled by rules tried in order, so each class says
something about all the rules before it.  Cleaning never changes the name of an
attribute, and its value only where it is style text.
-/

namespace CleanSvg

/-- Names that are allowed by how they begin. -/
def HasOpenPrefix (name : Text) : Prop :=
  "data-".toList <+: Text.lowercase name ∨ "aria-".toList <+: Text.lowercase name

theorem hasOpenPrefix_iff {name : Text} :
    (List.isPrefixOf "data-".toList (Text.lowercase name) ||
      List.isPrefixOf "aria-".toList (Text.lowercase name)) = true ↔
        HasOpenPrefix name := by
  simp [HasOpenPrefix]

/-- Names of links. -/
def IsLinkName (name : Text) : Prop :=
  Text.lowercase name = "href" ∨ Text.lowercase name = "xlink:href"

namespace AttributeClass

/-- The classes with everything that the order of the rules says about them. -/
inductive Classified (mode : Mode) (name value : Text) : AttributeClass → Prop where
  | eventHandler (handler : isEventHandlerName name = true) :
      Classified mode name value .eventHandler
  | dataOrAria (notHandler : isEventHandlerName name = false)
      (begins : HasOpenPrefix name) :
      Classified mode name value .dataOrAria
  | disallowed (notHandler : isEventHandlerName name = false)
      (closed : ¬ HasOpenPrefix name)
      (unlisted : Text.lowercase name ∉ mode.allowedAttributes) :
      Classified mode name value .disallowed
  | uri (notHandler : isEventHandlerName name = false)
      (closed : ¬ HasOpenPrefix name)
      (listed : Text.lowercase name ∈ mode.allowedAttributes)
      (link : IsLinkName name) :
      Classified mode name value .uri
  | style (notHandler : isEventHandlerName name = false)
      (closed : ¬ HasOpenPrefix name)
      (listed : Text.lowercase name ∈ mode.allowedAttributes)
      (same : Text.lowercase name = "style") :
      Classified mode name value .style
  | urlBearingPresentation (notHandler : isEventHandlerName name = false)
      (closed : ¬ HasOpenPrefix name)
      (listed : Text.lowercase name ∈ mode.allowedAttributes)
      (bearing : Text.lowercase name ∈ Names.urlBearingAttributes)
      (opens : Style.containsUrl value = true) :
      Classified mode name value .urlBearingPresentation
  | knownAllowed (notHandler : isEventHandlerName name = false)
      (closed : ¬ HasOpenPrefix name)
      (listed : Text.lowercase name ∈ mode.allowedAttributes)
      (noLink : ¬ IsLinkName name) (noStyle : Text.lowercase name ≠ "style")
      (plain : Text.lowercase name ∈ Names.urlBearingAttributes →
        Style.containsUrl value = false) :
      Classified mode name value .knownAllowed

theorem classify_classified (mode : Mode) (name value : Text) :
    Classified mode name value (classify mode name value) := by
  unfold classify
  simp only
  split
  · rename_i handler
    exact .eventHandler handler
  · rename_i notHandler
    have notHandler := Bool.eq_false_iff.mpr notHandler
    split
    · rename_i begins
      exact .dataOrAria notHandler (hasOpenPrefix_iff.mp begins)
    · rename_i closed
      have closed := fun begins => closed (hasOpenPrefix_iff.mpr begins)
      split
      · rename_i unlisted
        exact .disallowed notHandler closed (by simpa using unlisted)
      · rename_i listed
        have listed : Text.lowercase name ∈ mode.allowedAttributes := by
          simpa using listed
        split
        · rename_i link
          exact .uri notHandler closed listed link
        · rename_i noLink
          split
          · rename_i same
            exact .style notHandler closed listed same
          · rename_i noStyle
            split
            · rename_i opens
              obtain ⟨bearing, opens⟩ := Bool.and_eq_true_iff.mp opens
              exact .urlBearingPresentation notHandler closed listed
                (List.contains_iff_mem.mp bearing) opens
            · rename_i plain
              refine .knownAllowed notHandler closed listed noLink noStyle ?_
              intro bearing
              rw [List.contains_iff_mem.mpr bearing, Bool.true_and] at plain
              exact Bool.eq_false_iff.mpr plain

end AttributeClass

namespace Attribute

/-- What is left of an attribute. -/
def kept? (mode : Mode) (tag : Text) (candidate : Attribute) : Option Attribute :=
  match AttributeClass.classify mode candidate.name candidate.value with
  | .eventHandler | .disallowed => none
  | .dataOrAria | .knownAllowed => some candidate
  | .uri => if Link.isAllowed mode tag candidate.value then some candidate else none
  | .style | .urlBearingPresentation =>
      some { candidate with value := Style.clean candidate.value }

@[simp] theorem value_sanitize (mode : Mode) (tag : Text) (candidate : Attribute) :
    (candidate.sanitize mode tag).value = candidate.kept? mode tag := by
  unfold sanitize kept?
  cases AttributeClass.classify mode candidate.name candidate.value with
  | uri => simp only; split <;> rfl
  | style | urlBearingPresentation =>
      simp only [Journaled.value_bind, Style.value_cleanNoting]
      split
      · rename_i unchanged
        rw [unchanged]
        rfl
      · rfl
  | _ => rfl

@[simp] theorem value_sanitizeAll
    (mode : Mode) (tag : Text) (attributes : List Attribute) :
    (sanitizeAll mode tag attributes).value =
      attributes.filterMap (kept? mode tag) := by
  induction attributes with
  | nil => rfl
  | cons candidate others induction =>
      simp only [sanitizeAll, Journaled.value_bind, Journaled.value_pure,
        value_sanitize, induction, List.filterMap_cons]
      cases candidate.kept? mode tag <;> rfl

/-- An attribute keeps its name, and its value unless that is style text. -/
theorem kept?_eq_some
    {mode : Mode} {tag : Text} {candidate kept : Attribute}
    (left : candidate.kept? mode tag = some kept) :
    kept.name = candidate.name ∧
      (kept.value = candidate.value ∨
        kept.value = Style.clean candidate.value ∧
          (Text.lowercase candidate.name = "style" ∨
            Text.lowercase candidate.name ∈ Names.urlBearingAttributes)) := by
  have rule := AttributeClass.classify_classified mode candidate.name candidate.value
  unfold kept? at left
  cases class_ : AttributeClass.classify mode candidate.name candidate.value with
  | eventHandler | disallowed =>
      rw [class_] at left
      cases left
  | dataOrAria | knownAllowed =>
      rw [class_] at left
      cases left
      exact ⟨rfl, Or.inl rfl⟩
  | uri =>
      rw [class_] at left
      simp only [Option.ite_none_right_eq_some, Option.some.injEq] at left
      rw [← left.2]
      exact ⟨rfl, Or.inl rfl⟩
  | style =>
      rw [class_] at left rule
      cases left
      cases rule with
      | style _ _ _ same => exact ⟨rfl, Or.inr ⟨rfl, Or.inl same⟩⟩
  | urlBearingPresentation =>
      rw [class_] at left rule
      cases left
      cases rule with
      | urlBearingPresentation _ _ _ bearing =>
          exact ⟨rfl, Or.inr ⟨rfl, Or.inr bearing⟩⟩

end Attribute

end CleanSvg
