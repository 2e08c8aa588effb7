import CleanSvg.Markup.Element

/-!
# Places in a tree

A place is a path of indices among the members of content, texts counted.  An
element can be looked up and changed at a place; a path that leads to a text or
past the end leads to no element.
-/

namespace CleanSvg

/-- Changes the element that is the member of content with a given index. -/
def Content.modifyMember? (change : Element → Option Element) : Nat → Content → Option Content
  | _, .empty => none
  | 0, .text _ _ => none
  | 0, .element name attributes inner after =>
      (change ⟨name, attributes, inner⟩).map fun changed => .cons (.element changed) after
  | index + 1, .text characters after =>
      (after.modifyMember? change index).map (.text characters)
  | index + 1, .element name attributes inner after =>
      (after.modifyMember? change index).map (.element name attributes inner)

namespace Element

/-- Changes the element at a place. -/
def modifyAt? : List Nat → (Element → Element) → Element → Option Element
  | [], change, element => some (change element)
  | index :: path, change, element =>
      (element.content.modifyMember? (modifyAt? path change) index).map fun content =>
        { element with content }

def at? : List Nat → Element → Option Element
  | [], element => some element
  | index :: path, element =>
      match element.content.nodes[index]? with
      | some (.element inner) => inner.at? path
      | _ => none

def pushAttribute (element : Element) (added : Attribute) : Element :=
  { element with attributes := element.attributes ++ [added] }

def pushNode (element : Element) (node : Node) : Element :=
  { element with content := element.content ++ Content.cons node .empty }

end Element

end CleanSvg
