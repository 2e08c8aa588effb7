import CleanSvg.Policy.Names

/-!
# The two kinds of content

A vector graphic can hold a document of another kind inside one of its
elements.  The mode says which lists apply to a part of the tree.
-/

namespace CleanSvg

/-- Which rules govern a part of the tree. -/
inductive Mode
  /-- The graphic itself. -/
  | vectorGraphics
  /-- A document inside the graphic. -/
  | embeddedDocument
deriving DecidableEq, Repr

namespace Mode

def allowedElements : Mode → List Text
  | .vectorGraphics => Names.vectorElements
  | .embeddedDocument => Names.embeddedElements

def allowedAttributes : Mode → List Text
  | .vectorGraphics => Names.vectorAttributes
  | .embeddedDocument => Names.embeddedAttributes

/-- The name of a mode in log records. -/
def name : Mode → Text
  | .vectorGraphics => "VectorGraphics"
  | .embeddedDocument => "EmbeddedDocument"

end Mode

end CleanSvg
