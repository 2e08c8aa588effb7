import CleanSvg.Proofs.Markup.Comments
import CleanSvg.Proofs.Sanitize.Acceptance

/-!
# Comments make no difference

What cleaning does to content does not depend on whether its texts are in one part
or in two: texts between elements are kept as they are, and the text of a
stylesheet is put together before it is looked at.  So a comment that cuts nothing
changes neither the document that is written nor what is reported, and it hides no
word of a stylesheet.
-/

namespace CleanSvg

namespace Content.SplitInto

variable {whole pieces : Content}

theorem restyle (split : whole.SplitInto pieces) : whole.restyle = pieces.restyle := by
  have noElements : whole.elements.isEmpty = pieces.elements.isEmpty := by
    rw [Bool.eq_iff_iff, List.isEmpty_iff, List.isEmpty_iff]
    exact split.elements_eq_nil_iff
  rw [Content.restyle, Content.restyle, split.textContent, noElements]

theorem sanitize (split : whole.SplitInto pieces) (mode : Mode) :
    (whole.sanitize mode).value.SplitInto (pieces.sanitize mode).value ∧
      (whole.sanitize mode).changes = (pieces.sanitize mode).changes := by
  induction split generalizing mode with
  | empty => exact ⟨.empty, rfl⟩
  | text characters others induction =>
      obtain ⟨kept, same⟩ := induction mode
      refine ⟨.text characters kept, ?_⟩
      simpa [Content.sanitize] using same
  | parts first last others induction =>
      obtain ⟨kept, same⟩ := induction mode
      refine ⟨.parts first last kept, ?_⟩
      simpa [Content.sanitize] using same
  | element name attributes inside others inductionInside inductionOthers =>
      obtain ⟨keptOthers, sameOthers⟩ := inductionOthers mode
      simp only [Content.sanitize]
      cases Treatment.ofElement mode (Text.lowercase name) attributes with
      | remove => exact ⟨keptOthers, by simp [sameOthers]⟩
      | keep below =>
          obtain ⟨keptInside, sameInside⟩ := inductionInside below
          exact ⟨.element name _ keptInside keptOthers, by simp [sameInside, sameOthers]⟩
      | restyle =>
          simp only [inside.restyle]
          exact ⟨.element name _ (.refl _) keptOthers, by simp [sameOthers]⟩

end Content.SplitInto

namespace Element.SplitInto

variable {whole pieces : Element}

theorem sanitize (split : whole.SplitInto pieces) :
    whole.sanitize.value.SplitInto pieces.sanitize.value ∧
      whole.sanitize.changes = pieces.sanitize.changes := by
  obtain ⟨name, attributes, content⟩ := whole
  obtain ⟨_, _, contentPieces⟩ := pieces
  obtain ⟨rfl, rfl, sameContent⟩ := split
  obtain ⟨kept, same⟩ := sameContent.sanitize .vectorGraphics
  refine ⟨⟨rfl, rfl, kept⟩, ?_⟩
  simp [Element.sanitize, sanitizeAttributes, Element.tag, same]

theorem written (split : whole.SplitInto pieces) : whole.written = pieces.written := by
  obtain ⟨name, attributes, content⟩ := whole
  obtain ⟨_, _, contentPieces⟩ := pieces
  obtain ⟨rfl, rfl, sameContent⟩ := split
  exact (Content.SplitInto.element name attributes sameContent .empty).written

end Element.SplitInto

theorem Accepted.of_splitInto
    {text other : Text} {whole pieces : Element} {sanitized : Sanitized}
    (accepted : Accepted text whole sanitized) (split : whole.SplitInto pieces)
    (read : Element.parse other = .ok pieces) : Accepted other pieces sanitized := by
  obtain ⟨kept, changes⟩ := split.sanitize
  exact {
    read
    isRoot := by
      rw [Element.tag, ← split.name]
      exact accepted.isRoot
    inhabited := fun vacant => accepted.inhabited (kept.content.elements_eq_nil_iff.mpr vacant)
    written := accepted.written.trans kept.written
    reported := by rw [accepted.reported, changes] }

/-- A document in which a comment is put where it cuts no markup and no reference is accepted
with the same result. -/
theorem sanitizeDocument_comment
    {front rest body : Text} {sanitized : Sanitized}
    (noMark : (front ++ rest).head? ≠ some '\uFEFF')
    (accepted : sanitizeDocument (front ++ rest) = .ok sanitized)
    (cuts : CutsNothing front rest) (notClosed : ¬ "-->".toList <:+: body) :
    sanitizeDocument (front ++ (commentMarkup body ++ rest)) = .ok sanitized := by
  obtain ⟨_, whole, accepted⟩ := sanitizeWithin_eq_ok_iff.mp accepted
  obtain ⟨pieces, read, split⟩ := Element.parse_comment noMark cuts notClosed accepted.read
  exact sanitizeWithin_eq_ok_iff.mpr ⟨nofun, pieces, accepted.of_splitInto split read⟩

/-- The beginning of a document, which ends within a word of its stylesheet. -/
def dividedFront : Text :=
  "<svg><style>g{}@im"

def dividedRest : Text :=
  "port url(//x);</style><g/></svg>"

/-- A comment in the middle of a word does not hide the word. -/
theorem sanitizeDocument_dividedImport :
    sanitizeDocument (dividedFront ++ dividedRest) =
        .ok ⟨"<svg><style>g{}</style><g/></svg>", ⟨0, 0, 1⟩⟩ ∧
      sanitizeDocument (dividedFront ++ (commentMarkup ";</style>" ++ dividedRest)) =
        .ok ⟨"<svg><style>g{}</style><g/></svg>", ⟨0, 0, 1⟩⟩ := by
  have accepted : sanitizeDocument (dividedFront ++ dividedRest) =
      .ok ⟨"<svg><style>g{}</style><g/></svg>", ⟨0, 0, 1⟩⟩ := by
    decide +kernel
  have root : (Reader.ofText (dividedFront ++ dividedRest)).next? =
      .ok (some (.startTag "svg", ⟨"<style>g{}@import url(//x);</style><g/></svg>", ["svg"]⟩)) := by
    decide +kernel
  have stylesheet : Reader.next? ⟨"<style>g{}@import url(//x);</style><g/></svg>", ["svg"]⟩ =
      .ok (some (.startTag "style", ⟨"g{}@im".toList ++ dividedRest, ["style", "svg"]⟩)) := by
    decide +kernel
  have cuts : CutsNothing dividedFront dividedRest :=
    .insideText (.head ⟨_, root⟩ (.single ⟨_, stylesheet⟩)) (by decide) (.of_not_mem (by decide))
  exact ⟨accepted, sanitizeDocument_comment (by decide) accepted cuts (by decide +kernel)⟩

end CleanSvg
