import CleanSvg.Sanitize.Journal
import CleanSvg.Style.Clean

/-!
# Reports and log records

A report counts the removed elements, the removed attributes and the rewritten
values of a journal.  A log record words a single change; a replaced stylesheet
is counted but not logged.
-/

namespace CleanSvg

/-- How much was removed and rewritten. -/
structure Report where
  removedElements : Nat
  removedAttributes : Nat
  rewrittenValues : Nat
deriving DecidableEq, Repr

namespace Report

/-- Nothing removed and nothing rewritten. -/
def zero : Report :=
  ⟨0, 0, 0⟩

def isClean (report : Report) : Bool :=
  report.removedElements == 0 && report.removedAttributes == 0 && report.rewrittenValues == 0

/-- Counts one more change. -/
def add (report : Report) : Change → Report
  | .styleDropped => report
  | .attributeRewritten _ _ | .stylesheetRewritten =>
      { report with rewrittenValues := report.rewrittenValues + 1 }
  | .attributeRemoved _ _ => { report with removedAttributes := report.removedAttributes + 1 }
  | .elementRemoved _ _ => { report with removedElements := report.removedElements + 1 }

def addAll (report : Report) (changes : List Change) : Report :=
  changes.foldl add report

def ofChanges (changes : List Change) : Report :=
  zero.addAll changes

@[simp] theorem addAll_nil (report : Report) : report.addAll [] = report := rfl

@[simp] theorem addAll_append (report : Report) (earlier later : List Change) :
    report.addAll (earlier ++ later) = (report.addAll earlier).addAll later := by
  simp [addAll]

theorem isClean_iff {report : Report} : report.isClean = true ↔ report = zero := by
  obtain ⟨elements, attributes, values⟩ := report
  simp [isClean, zero, and_assoc]

end Report

inductive LogLevel
  | trace
  | debug
deriving DecidableEq, Repr

structure LogRecord where
  level : LogLevel
  message : Text
deriving DecidableEq, Repr

namespace LogRecord

def ofChange? : Change → Option LogRecord
  | .styleDropped =>
      some ⟨.debug, "Dropped style text still changing after ".toList ++
        Text.ofNat Style.passLimit ++ " passes".toList⟩
  | .attributeRewritten name tag =>
      some ⟨.trace, "Rewrote ".toList ++ name ++ " on <".toList ++ tag ++ ">".toList⟩
  | .attributeRemoved name tag =>
      some ⟨.trace, "Removed attribute ".toList ++ name ++ " from <".toList ++ tag ++ ">".toList⟩
  | .stylesheetRewritten => none
  | .elementRemoved name mode =>
      some ⟨.trace, "Removed <".toList ++ name ++ "> (".toList ++ mode.name ++ ")".toList⟩

/-- The log record of a document that was accepted. -/
def ofReport (report : Report) : LogRecord :=
  ⟨.debug, "Sanitized SVG: ".toList ++ Text.ofNat report.removedElements ++
    " elements and ".toList ++ Text.ofNat report.removedAttributes ++
    " attributes removed, ".toList ++ Text.ofNat report.rewrittenValues ++
    " values rewritten".toList⟩

end LogRecord

end CleanSvg
