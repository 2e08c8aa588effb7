import CleanSvg.Policy.Mode

/-!
# A journal of changes

Cleaning keeps a journal of what it removes and rewrites, in the order in which
it happens.  The report counts the journal and the log words it, so neither can
say anything that did not happen.
-/

namespace CleanSvg

inductive Change
  /-- Style text that did not settle was dropped. -/
  | styleDropped
  /-- An attribute got another value. -/
  | attributeRewritten (name tag : Text)
  /-- An attribute was removed. -/
  | attributeRemoved (name tag : Text)
  /-- The content of a style element was replaced. -/
  | stylesheetRewritten
  /-- An element was removed with everything in it. -/
  | elementRemoved (name : Text) (mode : Mode)
deriving DecidableEq, Repr

/-- A value, and the changes made on the way to it, the latest first. -/
structure Journaled (α : Type) where
  value : α
  latestFirst : List Change
deriving DecidableEq, Repr

namespace Journaled

variable {α β : Type}

/-- The changes in the order in which they were made. -/
def changes (journaled : Journaled α) : List Change :=
  journaled.latestFirst.reverse

instance : Monad Journaled where
  pure value := ⟨value, []⟩
  bind first next :=
    let second := next first.value
    ⟨second.value, second.latestFirst ++ first.latestFirst⟩

def note (change : Change) : Journaled Unit :=
  ⟨(), [change]⟩

@[simp] theorem value_pure (value : α) : (pure value : Journaled α).value = value := rfl

@[simp] theorem changes_pure (value : α) : (pure value : Journaled α).changes = [] := rfl

@[simp] theorem value_bind (first : Journaled α) (next : α → Journaled β) :
    (first >>= next).value = (next first.value).value := rfl

@[simp] theorem changes_bind (first : Journaled α) (next : α → Journaled β) :
    (first >>= next).changes = first.changes ++ (next first.value).changes := by
  simp [changes, bind]

@[simp] theorem value_note (change : Change) : (note change).value = () := rfl

@[simp] theorem changes_note (change : Change) : (note change).changes = [change] := rfl

end Journaled

end CleanSvg
