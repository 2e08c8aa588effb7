import CleanSvg.Markup.Builder
import CleanSvg.Markup.Written
import CleanSvg.Sanitize.Tree

/-!
# Cleaning a document

A document is accepted as a whole or refused as a whole.  It is refused when it
is too large, when it is not the markup of a vector graphic, and when no element
is left inside its root; it is never half trusted.
-/

namespace CleanSvg

/-- Why a document is refused. -/
inductive SanitizeError
  | parse (cause : ParseError)
  | unexpectedRoot (found : Text)
  | empty
  | inputTooLarge (length limit : Nat)
deriving DecidableEq, Repr

namespace SanitizeError

def message : SanitizeError → Text
  | .parse cause => cause.message
  | .unexpectedRoot found =>
      "root element is <".toList ++ found ++ ">, expected <svg>".toList
  | .empty => "nothing safe left after sanitization"
  | .inputTooLarge length limit =>
      "input is ".toList ++ Text.ofNat length ++ " bytes, limit is ".toList ++ Text.ofNat limit

/-- Whether a refusal means that the input was no vector graphic at all. -/
def isParseFailure : SanitizeError → Bool
  | .parse _ | .unexpectedRoot _ => true
  | .empty | .inputTooLarge _ _ => false

end SanitizeError

/-- What cleaning a tree came to: the tree as it was left, the journal and the verdict. -/
structure CleanedTree where
  root : Element
  changes : List Change
  verdict : Except SanitizeError Report

/-- Cleans a tree, which has to have the root of a vector graphic. -/
def Element.sanitizeTree (root : Element) : CleanedTree :=
  if root.tag ≠ Names.root then ⟨root, [], .error (.unexpectedRoot root.name)⟩
  else
    let cleaned := root.sanitize
    ⟨cleaned.value, cleaned.changes,
      if cleaned.value.childElements.isEmpty then .error .empty
      else .ok (Report.ofChanges cleaned.changes)⟩

/-- A document that was accepted. -/
structure Sanitized where
  svg : Text
  report : Report
deriving DecidableEq, Repr

/-- What cleaning a document came to, and what it wrote to the log. -/
structure Attempt where
  result : Except SanitizeError Sanitized
  log : List LogRecord

/-- Cleans a document of at most `limit` bytes, keeping a log. -/
def sanitizeLogging (limit : Option Nat) (text : Text) : Attempt :=
  match limit.filter fun most => most < Text.byteSize text with
  | some most => ⟨.error (.inputTooLarge (Text.byteSize text) most), []⟩
  | none =>
      match Element.parse text with
      | .error cause => ⟨.error (.parse cause), []⟩
      | .ok root =>
          let cleaned := root.sanitizeTree
          let log := cleaned.changes.filterMap LogRecord.ofChange?
          match cleaned.verdict with
          | .error cause => ⟨.error cause, log⟩
          | .ok report =>
              ⟨.ok ⟨cleaned.root.written, report⟩, log ++ [LogRecord.ofReport report]⟩

/-- Cleans a document of at most `limit` bytes. -/
def sanitizeWithin (limit : Option Nat) (text : Text) : Except SanitizeError Sanitized :=
  (sanitizeLogging limit text).result

def sanitizeDocument (text : Text) : Except SanitizeError Sanitized :=
  sanitizeWithin none text

/-- The cleaned document, or nothing when it is refused. -/
def sanitizeSvg (text : Text) : Text :=
  match sanitizeDocument text with
  | .ok sanitized => sanitized.svg
  | .error _ => []

end CleanSvg
