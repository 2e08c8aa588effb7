import CleanSvg.Sanitize.Animation
import CleanSvg.Sanitize.Attributes
import CleanSvg.Sanitize.Report

/-!
# Cleaning a tree

Each element is removed, restyled or kept, and what stands inside a kept one is
cleaned in its turn.  The mode changes in one place only: inside the element
that embeds another document.  The last of several siblings is cleaned first.
-/

namespace CleanSvg

inductive Treatment
  /-- It goes, with everything in it. -/
  | remove
  /-- It stays, and the rules of a mode govern what is inside. -/
  | keep (inside : Mode)
  /-- It stays, and what is inside becomes clean style text. -/
  | restyle
deriving DecidableEq, Repr

namespace Treatment

/-- The treatment of an element, by its lower-case name and its attributes. -/
def ofElement (mode : Mode) (tag : Text) (attributes : List Attribute) : Treatment :=
  match mode with
  | .vectorGraphics =>
      if tag = Names.embeddingElement then .keep .embeddedDocument
      else if tag = Names.style then .restyle
      else if Names.animationElements.contains tag && Animation.isDangerous attributes then .remove
      else if mode.allowedElements.contains tag then .keep .vectorGraphics
      else .remove
  | .embeddedDocument =>
      if Names.blockedEmbeddedElements.contains tag then .remove
      else if mode.allowedElements.contains tag then .keep .embeddedDocument
      else .remove

end Treatment

namespace Content

/-- What becomes of the content of a style element. -/
def restyle (inner : Content) : Journaled Content := do
  let cleaned ← Style.cleanNoting inner.textContent
  if cleaned = inner.textContent ∧ inner.elements.isEmpty then pure ()
  else Journaled.note .stylesheetRewritten
  pure (.ofText cleaned)

/-- Cleans content under the rules of a mode. -/
def sanitize (mode : Mode) : Content → Journaled Content
  | .empty => pure .empty
  | .text characters after => do
      let keptAfter ← after.sanitize mode
      pure (.text characters keptAfter)
  | .element name attributes inner after => do
      let keptAfter ← after.sanitize mode
      let tag := Text.lowercase name
      match Treatment.ofElement mode tag attributes with
      | .remove => do
          Journaled.note (.elementRemoved name mode)
          pure keptAfter
      | .keep inside => do
          let kept ← Attribute.sanitizeAll mode tag attributes
          let keptInner ← inner.sanitize inside
          pure (.element name kept keptInner keptAfter)
      | .restyle => do
          let kept ← Attribute.sanitizeAll mode tag attributes
          let keptInner ← inner.restyle
          pure (.element name kept keptInner keptAfter)

end Content

def Element.sanitize (root : Element) : Journaled Element := do
  let kept ← root.sanitizeAttributes .vectorGraphics
  let content ← root.content.sanitize .vectorGraphics
  pure { kept with content }

end CleanSvg
