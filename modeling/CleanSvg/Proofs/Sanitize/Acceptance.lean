import Mathlib.Control.Monad.Basic
import CleanSvg.Sanitize.Document

/-!
# When a document is accepted

A document is accepted when it is within the limit, is the markup of one
element named `svg`, and keeps an element inside that root.  What is written is
then the cleaned root and nothing else.
-/

namespace CleanSvg

/-- The tree of an accepted document, its report and the text it is written as. -/
structure Accepted (text : Text) (parsed : Element) (sanitized : Sanitized) : Prop where
  read : Element.parse text = .ok parsed
  isRoot : parsed.tag = Names.root
  inhabited : parsed.sanitize.value.childElements ≠ []
  written : sanitized.svg = parsed.sanitize.value.written
  reported : sanitized.report = Report.ofChanges parsed.sanitize.changes

theorem Accepted.of_parse
    {text : Text} {parsed : Element} (read : Element.parse text = .ok parsed)
    (isRoot : parsed.tag = Names.root)
    (inhabited : parsed.sanitize.value.childElements ≠ []) :
    Accepted text parsed
      ⟨parsed.sanitize.value.written, Report.ofChanges parsed.sanitize.changes⟩ :=
  ⟨read, isRoot, inhabited, rfl, rfl⟩

theorem verdict_sanitizeTree_eq_ok_iff {root : Element} {report : Report} :
    root.sanitizeTree.verdict = .ok report ↔
      root.tag = Names.root ∧ root.sanitize.value.childElements ≠ [] ∧
        report = Report.ofChanges root.sanitize.changes := by
  unfold Element.sanitizeTree
  by_cases isRoot : root.tag = Names.root
  · rw [if_neg (not_not_intro isRoot)]
    simp only [List.isEmpty_iff]
    by_cases vacant : root.sanitize.value.childElements = []
    · rw [if_pos vacant]
      exact ⟨nofun, fun allowed => absurd vacant allowed.2.1⟩
    · rw [if_neg vacant]
      constructor
      · intro verdict
        cases verdict
        exact ⟨isRoot, vacant, rfl⟩
      · rintro ⟨_, _, rfl⟩
        rfl
  · rw [if_pos isRoot]
    exact ⟨nofun, fun allowed => absurd allowed.1 isRoot⟩

theorem root_sanitizeTree {root : Element} (isRoot : root.tag = Names.root) :
    root.sanitizeTree.root = root.sanitize.value := by
  rw [Element.sanitizeTree, if_neg (not_not_intro isRoot)]

/-- A document is accepted exactly when its size, its markup, its root and what is left
inside allow it. -/
theorem sanitizeWithin_eq_ok_iff
    {limit : Option Nat} {text : Text} {sanitized : Sanitized} :
    sanitizeWithin limit text = .ok sanitized ↔
      (∀ most, limit = some most → Text.byteSize text ≤ most) ∧
        ∃ parsed, Accepted text parsed sanitized := by
  have refused : ∀ most, limit.filter (fun most => most < Text.byteSize text) = some most ↔
      limit = some most ∧ most < Text.byteSize text := by
    intro most
    simp [Option.filter_eq_some_iff]
  constructor
  · intro accepted
    unfold sanitizeWithin sanitizeLogging at accepted
    split at accepted
    · cases accepted
    · rename_i within
      refine ⟨?_, ?_⟩
      · intro most limited
        refine Nat.le_of_not_lt fun tooLarge => ?_
        have wrong := (refused most).mpr ⟨limited, tooLarge⟩
        rw [within] at wrong
        cases wrong
      · split at accepted
        · cases accepted
        · rename_i parsed read
          simp only at accepted
          split at accepted
          · cases accepted
          · rename_i report verdict
            obtain ⟨isRoot, inhabited, reported⟩ :=
              verdict_sanitizeTree_eq_ok_iff.mp verdict
            cases accepted
            refine ⟨parsed, read, isRoot, inhabited, ?_, reported⟩
            rw [root_sanitizeTree isRoot]
  · rintro ⟨within, parsed, accepted⟩
    have unlimited : limit.filter (fun most => most < Text.byteSize text) = none := by
      refine Option.eq_none_iff_forall_not_mem.mpr ?_
      intro most found
      obtain ⟨limited, tooLarge⟩ := (refused most).mp found
      exact Nat.not_lt_of_le (within most limited) tooLarge
    have verdict := verdict_sanitizeTree_eq_ok_iff.mpr
      ⟨accepted.isRoot, accepted.inhabited, accepted.reported⟩
    obtain ⟨svg, report⟩ := sanitized
    have written := accepted.written
    simp only at written verdict
    simp [sanitizeWithin, sanitizeLogging, unlimited, accepted.read, verdict,
      root_sanitizeTree accepted.isRoot, written]

end CleanSvg
