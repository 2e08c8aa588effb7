import CleanSvg.Markup.Element
import CleanSvg.Markup.Reference

/-!
# Trees as markup

Writing puts every attribute value into double quotes and spells the characters
that markup uses by references.  An element with nothing inside is one empty tag.
-/

namespace CleanSvg

/-- An attribute as it is written, with the space before it. -/
def Attribute.written (written : Attribute) : Text :=
  ' ' :: written.name ++ '=' :: '"' :: Reference.escapeValue written.value ++ ['"']

/-- A start tag without its closing bracket. -/
def Element.tagOpening (name : Text) (attributes : List Attribute) : Text :=
  '<' :: name ++ attributes.flatMap Attribute.written

def Content.written : Content → Text
  | .empty => []
  | .text characters after => Reference.escapeText characters ++ after.written
  | .element name attributes .empty after =>
      Element.tagOpening name attributes ++ '/' :: '>' :: after.written
  | .element name attributes inner after =>
      Element.tagOpening name attributes ++ '>' :: inner.written ++
        '<' :: '/' :: name ++ '>' :: after.written

def Element.written (element : Element) : Text :=
  (Content.element element.name element.attributes element.content .empty).written

end CleanSvg
