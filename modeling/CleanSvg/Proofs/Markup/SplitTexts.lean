import Mathlib.Data.List.Forall2
import CleanSvg.Proofs.Markup.JoinedTexts

/-!
# Texts in several parts

Where something is passed over in the middle of a text, the tree has two texts
instead of one.  That can be told from the members of the tree alone: the text of
the content and the way it is written stay the same, and so does everything that
is built around it from the same events.
-/

namespace CleanSvg

namespace Content

/-- The same content but for texts that are in two parts. -/
inductive SplitInto : Content → Content → Prop
  | empty : SplitInto .empty .empty
  | text (characters : Text) {after pieces : Content} (others : SplitInto after pieces) :
      SplitInto (.text characters after) (.text characters pieces)
  | parts (first last : Text) {after pieces : Content} (others : SplitInto after pieces) :
      SplitInto (.text (first ++ last) after) (.text first (.text last pieces))
  | element (name : Text) (attributes : List Attribute) {inner innerPieces after pieces : Content}
      (inside : SplitInto inner innerPieces) (others : SplitInto after pieces) :
      SplitInto (.element name attributes inner after) (.element name attributes innerPieces pieces)

namespace SplitInto

variable {whole pieces : Content}

theorem refl (content : Content) : content.SplitInto content := by
  induction content with
  | empty => exact .empty
  | text characters after induction => exact .text characters induction
  | element name attributes inner after inside others =>
      exact .element name attributes inside others

theorem reverseOnto
    (content : Content) (split : whole.SplitInto pieces) :
    (content.reverseOnto whole).SplitInto (content.reverseOnto pieces) := by
  induction content generalizing whole pieces with
  | empty => exact split
  | text characters after induction => exact induction (.text characters split)
  | element name attributes inner after _ induction =>
      exact induction (.element name attributes (refl inner) split)

theorem textContent (split : whole.SplitInto pieces) : whole.textContent = pieces.textContent := by
  induction split with
  | empty => rfl
  | text characters others induction => rw [Content.textContent, Content.textContent, induction]
  | parts first last others induction =>
      rw [Content.textContent, Content.textContent, Content.textContent, induction,
        List.append_assoc]
  | element name attributes inside others insideSame othersSame =>
      rw [Content.textContent, Content.textContent, insideSame, othersSame]

theorem elements_eq_nil_iff (split : whole.SplitInto pieces) :
    whole.elements = [] ↔ pieces.elements = [] := by
  induction split with
  | empty => rfl
  | text characters others induction => exact induction
  | parts first last others induction => exact induction
  | element name attributes inside others =>
      exact iff_of_false (List.cons_ne_nil _ _) (List.cons_ne_nil _ _)

theorem eq_empty_iff (split : whole.SplitInto pieces) : whole = .empty ↔ pieces = .empty := by
  cases split with
  | empty => exact Iff.rfl
  | text | parts | element => exact iff_of_false nofun nofun

theorem written (split : whole.SplitInto pieces) : whole.written = pieces.written := by
  induction split with
  | empty => rfl
  | text characters others induction => rw [Content.written, Content.written, induction]
  | parts first last others induction =>
      rw [Content.written, Content.written, Content.written, induction, ← List.append_assoc,
        Reference.escapeText, Reference.escapeText, Reference.escapeText, List.flatMap_append]
  | @element name attributes inner innerPieces after pieces inside others insideSame othersSame =>
      by_cases vacant : inner = .empty
      · rw [vacant, inside.eq_empty_iff.mp vacant, Content.written, Content.written, othersSame]
      · have inhabited : innerPieces ≠ .empty := fun same => vacant (inside.eq_empty_iff.mpr same)
        rw [written_element_of_ne vacant, written_element_of_ne inhabited, insideSame, othersSame]

end SplitInto

end Content

structure Element.SplitInto (whole pieces : Element) : Prop where
  name : whole.name = pieces.name
  attributes : whole.attributes = pieces.attributes
  content : whole.content.SplitInto pieces.content

theorem Element.SplitInto.refl (element : Element) : element.SplitInto element :=
  ⟨rfl, rfl, .refl element.content⟩

/-- An open element that will be the same, but for texts in two parts, whatever comes. -/
structure OpenElement.SplitInto (whole pieces : OpenElement) : Prop where
  name : whole.name = pieces.name
  attributes : whole.attributes = pieces.attributes
  behind : ∀ {after afterPieces : Content}, after.SplitInto afterPieces →
    (whole.behind.reverseOnto after).SplitInto (pieces.behind.reverseOnto afterPieces)

namespace OpenElement.SplitInto

variable {whole pieces : OpenElement}

theorem refl (element : OpenElement) : element.SplitInto element where
  name := rfl
  attributes := rfl
  behind others := .reverseOnto element.behind others

theorem push_text (split : whole.SplitInto pieces) (characters : Text) :
    (whole.push (.text characters)).SplitInto (pieces.push (.text characters)) where
  name := split.name
  attributes := split.attributes
  behind others := split.behind (.text characters others)

theorem push_parts (split : whole.SplitInto pieces) (first last : Text) :
    (whole.push (.text (first ++ last))).SplitInto
      ((pieces.push (.text first)).push (.text last)) where
  name := split.name
  attributes := split.attributes
  behind others := split.behind (.parts first last others)

theorem push_element
    (split : whole.SplitInto pieces) {child childPieces : Element}
    (inside : child.SplitInto childPieces) :
    (whole.push (.element child)).SplitInto (pieces.push (.element childPieces)) where
  name := split.name
  attributes := split.attributes
  behind others := by
    obtain ⟨name, attributes, content⟩ := child
    obtain ⟨_, _, contentPieces⟩ := childPieces
    obtain ⟨rfl, rfl, sameContent⟩ := inside
    exact split.behind (.element name attributes sameContent others)

theorem finish (split : whole.SplitInto pieces) : whole.finish.SplitInto pieces.finish where
  name := split.name
  attributes := split.attributes
  content := split.behind .empty

end OpenElement.SplitInto

/-- A tree on the way that is the same but for texts that are in two parts. -/
structure Builder.SplitInto (whole pieces : Builder) : Prop where
  opened : List.Forall₂ OpenElement.SplitInto whole.opened pieces.opened
  root : Option.Rel Element.SplitInto whole.root pieces.root

namespace Builder.SplitInto

variable {whole pieces next : Builder}

theorem refl (builder : Builder) : builder.SplitInto builder where
  opened := List.forall₂_same.mpr fun element _ => .refl element
  root := by
    cases builder.root with
    | none => exact .none
    | some root => exact .some (.refl root)

theorem attach
    (split : whole.SplitInto pieces) {child childPieces : Element}
    (inside : child.SplitInto childPieces) (attached : whole.attach child = .ok next) :
    ∃ nextPieces, pieces.attach childPieces = .ok nextPieces ∧ next.SplitInto nextPieces := by
  obtain ⟨opened, root⟩ := whole
  obtain ⟨openedPieces, rootPieces⟩ := pieces
  obtain ⟨sameOpened, sameRoot⟩ := split
  cases sameOpened with
  | nil =>
      cases sameRoot with
      | some => cases attached
      | none =>
          cases attached
          exact ⟨_, rfl, .nil, .some inside⟩
  | cons parent outer =>
      cases attached
      exact ⟨_, rfl, .cons (parent.push_element inside) outer, sameRoot⟩

theorem attachText
    (split : whole.SplitInto pieces) {characters : Text}
    (attached : whole.attachText characters = .ok next) :
    ∃ nextPieces, pieces.attachText characters = .ok nextPieces ∧ next.SplitInto nextPieces := by
  obtain ⟨opened, root⟩ := whole
  obtain ⟨openedPieces, rootPieces⟩ := pieces
  obtain ⟨sameOpened, sameRoot⟩ := split
  cases sameOpened with
  | nil =>
      simp only [Builder.attachText] at attached ⊢
      split at attached
      · rename_i blank
        cases attached
        rw [if_pos blank]
        exact ⟨_, rfl, .nil, sameRoot⟩
      · cases attached
  | cons parent outer =>
      cases attached
      exact ⟨_, rfl, .cons (parent.push_text characters) outer, sameRoot⟩

/-- A text is attached as its parts are, one after the other. -/
theorem of_attachText
    {builder : Builder} {first last : Text}
    (attached : builder.attachText (first ++ last) = .ok next) :
    ∃ middle nextPieces, builder.attachText first = .ok middle ∧
      middle.attachText last = .ok nextPieces ∧ next.SplitInto nextPieces := by
  obtain ⟨_ | ⟨parent, outer⟩, root⟩ := builder
  · simp only [Builder.attachText] at attached ⊢
    split at attached
    · rename_i blank
      cases attached
      rw [Text.allBlank, List.all_append, Bool.and_eq_true] at blank
      obtain ⟨blankFirst, blankLast⟩ := blank
      refine ⟨⟨[], root⟩, ⟨[], root⟩, if_pos blankFirst, if_pos blankLast, .refl _⟩
    · cases attached
  · cases attached
    have whole : OpenElement.SplitInto (parent.push (.text (first ++ last))) _ :=
      (OpenElement.SplitInto.refl parent).push_parts first last
    have unchanged := refl ⟨outer, root⟩
    exact ⟨_, _, rfl, rfl, .cons whole unchanged.opened, unchanged.root⟩

theorem openElement
    (split : whole.SplitInto pieces) {inside : Text}
    (opens : whole.openElement inside = .ok next) :
    ∃ nextPieces, pieces.openElement inside = .ok nextPieces ∧ next.SplitInto nextPieces := by
  obtain ⟨opened, root⟩ := whole
  obtain ⟨openedPieces, rootPieces⟩ := pieces
  obtain ⟨sameOpened, sameRoot⟩ := split
  have outside : openedPieces.isEmpty = opened.isEmpty := by
    cases sameOpened with
    | nil => rfl
    | cons => rfl
  have complete : rootPieces.isSome = root.isSome := by
    cases sameRoot with
    | none => rfl
    | some => rfl
  unfold Builder.openElement at opens ⊢
  simp only [outside, complete]
  split at opens
  · cases opens
  · rename_i room
    obtain ⟨element, read, same⟩ := bind_eq_ok_iff.mp opens
    cases same
    rw [if_neg room]
    exact ⟨_, bind_eq_ok_iff.mpr ⟨element, read, rfl⟩, .cons (.refl _) sameOpened, sameRoot⟩

theorem closeElement
    (split : whole.SplitInto pieces) (closes : whole.closeElement = .ok next) :
    ∃ nextPieces, pieces.closeElement = .ok nextPieces ∧ next.SplitInto nextPieces := by
  obtain ⟨opened, root⟩ := whole
  obtain ⟨openedPieces, rootPieces⟩ := pieces
  obtain ⟨sameOpened, sameRoot⟩ := split
  cases sameOpened with
  | nil => cases closes
  | cons innermost outer =>
      have outside : Builder.SplitInto ⟨_, root⟩ ⟨_, rootPieces⟩ := ⟨outer, sameRoot⟩
      exact outside.attach innermost.finish closes

theorem step
    (split : whole.SplitInto pieces) {event : Event} (stepped : whole.step event = .ok next) :
    ∃ nextPieces, pieces.step event = .ok nextPieces ∧ next.SplitInto nextPieces := by
  cases event with
  | startTag inside => exact split.openElement stepped
  | emptyTag inside =>
      obtain ⟨element, read, attached⟩ := bind_eq_ok_iff.mp stepped
      obtain ⟨nextPieces, attachedPieces, splitNext⟩ := split.attach (.refl element) attached
      exact ⟨nextPieces, bind_eq_ok_iff.mpr ⟨element, read, attachedPieces⟩, splitNext⟩
  | endTag name => exact split.closeElement stepped
  | text written =>
      obtain ⟨characters, read, attached⟩ := bind_eq_ok_iff.mp stepped
      obtain ⟨nextPieces, attachedPieces, splitNext⟩ := split.attachText attached
      exact ⟨nextPieces, bind_eq_ok_iff.mpr ⟨characters, read, attachedPieces⟩, splitNext⟩
  | characterData characters => exact split.attachText stepped
  | passedOver =>
      cases stepped
      exact ⟨pieces, rfl, split⟩

theorem finish
    {root : Element} (split : whole.SplitInto pieces) (finished : whole.finish = .ok root) :
    ∃ rootPieces, pieces.finish = .ok rootPieces ∧ root.SplitInto rootPieces := by
  obtain ⟨opened, root⟩ := whole
  obtain ⟨openedPieces, rootPieces⟩ := pieces
  obtain ⟨sameOpened, sameRoot⟩ := split
  cases sameOpened with
  | cons => cases finished
  | nil =>
      cases sameRoot with
      | none => cases finished
      | some same =>
          cases finished
          exact ⟨_, rfl, same⟩

/-- The same events build the same tree but for texts in two parts. -/
theorem run
    {reader : Reader} {root : Element} (split : whole.SplitInto pieces)
    (parsed : whole.run reader = .ok root) :
    ∃ rootPieces, pieces.run reader = .ok rootPieces ∧ root.SplitInto rootPieces := by
  induction whole, reader using Builder.run.induct generalizing pieces with
  | case1 builder reader cause read =>
      rw [run_of_error read] at parsed
      cases parsed
  | case2 builder reader read =>
      rw [run_of_end read] at parsed ⊢
      exact split.finish parsed
  | case3 builder reader event after read induction =>
      rw [run_of_event read] at parsed
      obtain ⟨next, stepped, parsed⟩ := bind_eq_ok_iff.mp parsed
      obtain ⟨nextPieces, steppedPieces, splitNext⟩ := split.step stepped
      rw [run_of_step read steppedPieces]
      exact induction next splitNext parsed

end Builder.SplitInto

end CleanSvg
