import CleanSvg.Markup.Element
import CleanSvg.Policy.AttributeClass
import CleanSvg.Sanitize.Journal

/-!
# Cleaning attributes

Each attribute is kept, rewritten or removed by its class.  A link that its
element may not carry is removed and never rewritten; style text is rewritten
and never removed.
-/

namespace CleanSvg

/-- Whether an element may carry a link.  In an embedded document only anchors link, and only
to pages and mail addresses. -/
def Link.isAllowed (mode : Mode) (tag value : Text) : Bool :=
  match mode with
  | .vectorGraphics => (Link.accepted? tag value).isSome
  | .embeddedDocument => tag == Names.anchor && Link.isSafe value

/-- Cleans style text and notes when it is dropped. -/
def Style.cleanNoting (css : Text) : Journaled Text :=
  match Style.settled? css with
  | some cleaned => pure cleaned
  | none => do
      Journaled.note .styleDropped
      pure []

@[simp] theorem Style.value_cleanNoting (css : Text) :
    (Style.cleanNoting css).value = Style.clean css := by
  unfold Style.cleanNoting Style.clean
  split <;> simp [*]

namespace Attribute

/-- Cleans one attribute of an element; `none` when it is removed. -/
def sanitize (mode : Mode) (tag : Text) (candidate : Attribute) :
    Journaled (Option Attribute) :=
  let remove : Journaled (Option Attribute) := do
    Journaled.note (.attributeRemoved candidate.name tag)
    pure none
  match AttributeClass.classify mode candidate.name candidate.value with
  | .eventHandler | .disallowed => remove
  | .dataOrAria | .knownAllowed => pure (some candidate)
  | .uri => if Link.isAllowed mode tag candidate.value then pure (some candidate) else remove
  | .style | .urlBearingPresentation => do
      let cleaned ← Style.cleanNoting candidate.value
      if cleaned = candidate.value then pure (some candidate)
      else do
        Journaled.note (.attributeRewritten candidate.name tag)
        pure (some { candidate with value := cleaned })

/-- Cleans the attributes of an element, in order. -/
def sanitizeAll (mode : Mode) (tag : Text) : List Attribute → Journaled (List Attribute)
  | [] => pure []
  | candidate :: others => do
      let kept ← candidate.sanitize mode tag
      let keptOthers ← sanitizeAll mode tag others
      pure (kept.toList ++ keptOthers)

end Attribute

/-- Cleans the attributes of an element and leaves what is inside it. -/
def Element.sanitizeAttributes (mode : Mode) (element : Element) : Journaled Element := do
  let attributes ← Attribute.sanitizeAll mode element.tag element.attributes
  pure { element with attributes }

end CleanSvg
