import CleanSvg.Markup.Written
import CleanSvg.Proofs.Markup.EveryTag

/-!
# Texts that stand side by side

Written one after the other, texts cannot be told apart, and an empty one leaves
no trace.  The joined form of content makes one text of those that are adjacent
and leaves out the empty ones; it is the most that reading can give back.  It is
written as the content itself, unless an element held empty texts and nothing
else.
-/

namespace CleanSvg

namespace Content

/-- Puts characters before content: no characters leave no text, and other characters become
one text with a text that the content begins with. -/
def prependText (characters : Text) : Content → Content
  | .text more after => .text (characters ++ more) after
  | rest => if characters = [] then rest else .text characters rest

/-- Content with adjacent texts made one and without empty texts, at every depth. -/
def joined : Content → Content
  | .empty => .empty
  | .text characters after => after.joined.prependText characters
  | .element name attributes inner after =>
      .element name attributes inner.joined after.joined

/-- No element holds empty texts and nothing else. -/
def Filled : Content → Prop
  | .empty => True
  | .text _ after => after.Filled
  | .element _ _ inner after =>
      (inner.joined = .empty → inner = .empty) ∧ inner.Filled ∧ after.Filled

end Content

def Element.joined (element : Element) : Element :=
  { element with content := element.content.joined }

namespace Content

@[simp] theorem prependText_nil (content : Content) : content.prependText [] = content := by
  cases content <;> rfl

theorem prependText_append (left right : Text) (content : Content) :
    content.prependText (left ++ right) = (content.prependText right).prependText left := by
  cases content with
  | text more after => simp [prependText]
  | empty | element =>
      cases right with
      | nil => rw [List.append_nil, prependText_nil]
      | cons character right => simp [prependText]

theorem joined_prependText (characters : Text) (content : Content) :
    (content.prependText characters).joined = content.joined.prependText characters := by
  cases content with
  | text more after => exact prependText_append characters more after.joined
  | empty | element =>
      cases characters with
      | nil => rw [prependText_nil, prependText_nil]
      | cons character characters => rfl

@[simp] theorem joined_joined (content : Content) : content.joined.joined = content.joined := by
  induction content with
  | empty => rfl
  | text characters after induction => rw [joined, joined_prependText, induction]
  | element name attributes inner after inside behind => rw [joined, joined, inside, behind]

@[simp] theorem elements_prependText (characters : Text) (content : Content) :
    (content.prependText characters).elements = content.elements := by
  cases content with
  | text more after => rfl
  | empty | element => cases characters <;> rfl

theorem elements_joined (content : Content) :
    content.joined.elements = content.elements.map Element.joined := by
  induction content with
  | empty => rfl
  | text characters after induction => rw [joined, elements_prependText, induction]; rfl
  | element name attributes inner after _ induction =>
      rw [joined, elements, elements, induction]
      rfl

@[simp] theorem everyTag_prependText
    {holds : Text → List Attribute → Prop} (characters : Text) (content : Content) :
    (content.prependText characters).EveryTag holds ↔ content.EveryTag holds := by
  rw [everyTag_iff_elements, everyTag_iff_elements, elements_prependText]

@[simp] theorem everyTag_joined
    {holds : Text → List Attribute → Prop} (content : Content) :
    content.joined.EveryTag holds ↔ content.EveryTag holds := by
  induction content with
  | empty => rfl
  | text characters after induction => rw [joined, everyTag_prependText, induction]; rfl
  | element name attributes inner after inside behind =>
      rw [joined, EveryTag, EveryTag, inside, behind]

theorem written_prependText (characters : Text) (content : Content) :
    (content.prependText characters).written =
      Reference.escapeText characters ++ content.written := by
  cases content with
  | text more after => simp [prependText, written, Reference.escapeText]
  | empty | element =>
      cases characters with
      | nil => rfl
      | cons character characters => rfl

theorem joined_of_elements_eq_nil {content : Content} (noElements : content.elements = []) :
    content.joined = .ofText content.textContent := by
  induction content with
  | empty => rfl
  | text characters after induction =>
      rw [joined, induction noElements, textContent]
      cases after.textContent with
      | nil => cases characters <;> simp [ofText, prependText]
      | cons character more => cases characters <;> rfl
  | element name attributes inner after => cases noElements

theorem written_of_elements_eq_nil {content : Content} (noElements : content.elements = []) :
    content.written = Reference.escapeText content.textContent := by
  induction content with
  | empty => rfl
  | text characters after induction =>
      rw [written, induction noElements, textContent, Reference.escapeText,
        Reference.escapeText, Reference.escapeText, List.flatMap_append]
  | element name attributes inner after => cases noElements

theorem written_element_of_ne
    {inner : Content} (inhabited : inner ≠ .empty) (name : Text)
    (attributes : List Attribute) (after : Content) :
    (Content.element name attributes inner after).written =
      Element.tagOpening name attributes ++ '>' :: inner.written ++
        '<' :: '/' :: name ++ '>' :: after.written := by
  cases inner with
  | empty => exact absurd rfl inhabited
  | text | element => rfl

/-- Joining changes nothing in how filled content is written. -/
theorem Filled.written_joined {content : Content} (filled : content.Filled) :
    content.joined.written = content.written := by
  induction content with
  | empty => rfl
  | text characters after induction =>
      rw [joined, written_prependText, induction filled, written]
  | element name attributes inner after inside behind =>
      obtain ⟨notHollow, filledInside, filledBehind⟩ := filled
      by_cases vacant : inner = .empty
      · subst vacant
        rw [joined, joined, written, written, behind filledBehind]
      · have stillInhabited : inner.joined ≠ .empty := fun same => vacant (notHollow same)
        rw [joined, written_element_of_ne stillInhabited, written_element_of_ne vacant,
          inside filledInside, behind filledBehind]

end Content

namespace Element

@[simp] theorem joined_joined (element : Element) : element.joined.joined = element.joined := by
  simp [joined]

@[simp] theorem everyTag_joined
    {holds : Text → List Attribute → Prop} (element : Element) :
    element.joined.EveryTag holds ↔ element.EveryTag holds := by
  simp [joined, EveryTag]

end Element

end CleanSvg
