import CleanSvg.Proofs.Markup.JoinedTexts
import CleanSvg.Proofs.Markup.WrittenTags

/-!
# Reading back a written tree

A written tree is read tag by tag, and what is read is attached where it stood,
so reading goes through written content to its end and adds its joined form.
This takes names without the signs of markup for elements, and for attributes
names that reading does not refuse; beyond that it takes only that each tag ends
where it was written to end.
-/

namespace CleanSvg

namespace Tag

/-- The signs of markup that would change how a name of an element is read. -/
def nameSigns : List Char :=
  [' ', '\t', '\n', '\r', '>', '"', '\'', '/', '!', '?']

/-- A tag with names that are read as they are written, if the tag ends where it should. -/
structure Legible (name : Text) (attributes : List Attribute) : Prop
    extends Sound attributes where
  nonempty : name ≠ []
  plain : ∀ sign ∈ nameSigns, sign ∉ name

/-- The quotes that the names of attributes open are closed by them too, and no closing
bracket stands outside quotes. -/
def Balanced (_ : Text) (attributes : List Attribute) : Prop :=
  Reader.follow none (attributes.flatMap Attribute.name) = some none

instance (name : Text) (attributes : List Attribute) : Decidable (Balanced name attributes) :=
  inferInstanceAs (Decidable (_ = _))

/-- What stands between the brackets of a written tag. -/
def writtenInside (name : Text) (attributes : List Attribute) : Text :=
  name ++ attributes.flatMap Attribute.written

namespace Legible

variable {name : Text} {attributes : List Attribute}

theorem noSpace (legible : Legible name attributes) :
    ∀ character ∈ name, isSpace character = false := by
  have spaces : ∀ character, isSpace character = true → character ∈ nameSigns := by
    intro character space
    simp only [isSpace, Bool.or_eq_true, beq_iff_eq] at space
    rcases space with ((rfl | rfl) | rfl) | rfl <;> decide
  intro character member
  refine Bool.eq_false_iff.mpr fun space => ?_
  exact legible.plain character (spaces character space) member

theorem bland (legible : Legible name attributes) :
    ∀ character ∈ name, Reader.Bland character := by
  intro character member
  refine ⟨?_, ?_, ?_⟩ <;>
    · rintro rfl
      exact legible.plain _ (by decide) member

theorem begins (legible : Legible name attributes) (rest : Text) :
    ∃ first others, name ++ rest = first :: others ∧ first ∉ ['!', '/', '?'] := by
  cases name with
  | nil => exact absurd rfl legible.nonempty
  | cons first others =>
      refine ⟨first, others ++ rest, rfl, ?_⟩
      intro special
      have sign : ∀ character ∈ ['!', '/', '?'], character ∈ nameSigns :=
        forall_mem_of_all (by decide)
      exact legible.plain first (sign first special) List.mem_cons_self

end Legible

theorem follow_flatMap_written
    {quote : Option Char} (state : quote ∈ Reader.quoteStates) (attributes : List Attribute) :
    Reader.follow quote (attributes.flatMap Attribute.written) =
      Reader.follow quote (attributes.flatMap Attribute.name) := by
  induction attributes generalizing quote with
  | nil => rfl
  | cons attr attributes induction =>
      rw [List.flatMap_cons, List.flatMap_cons, Reader.follow_append, Reader.follow_append,
        Reader.follow_written state]
      cases followed : Reader.follow quote attr.name with
      | none => rfl
      | some after => exact induction (Reader.follow_mem state followed)

theorem Legible.follow_writtenInside
    {name : Text} {attributes : List Attribute} (legible : Legible name attributes) :
    Reader.follow none (writtenInside name attributes) =
      Reader.follow none (attributes.flatMap Attribute.name) := by
  have begun : Reader.follow none name = some none :=
    Reader.follow_bland (by decide) legible.bland
  rw [writtenInside, Reader.follow_append, begun, Option.bind_some,
    follow_flatMap_written (by decide)]

theorem Legible.opensElement
    {name : Text} {attributes : List Attribute} (legible : Legible name attributes)
    (balanced : Balanced name attributes) :
    Reader.OpensElement (writtenInside name attributes) :=
  ⟨legible.begins _, legible.follow_writtenInside.trans balanced⟩

theorem Legible.getLast?_writtenInside
    {name : Text} {attributes : List Attribute} (legible : Legible name attributes) :
    (writtenInside name attributes).getLast? ≠ some '/' := by
  rcases List.eq_nil_or_concat attributes with rfl | ⟨earlier, last, rfl⟩
  · intro slash
    rw [writtenInside, List.flatMap_nil, List.append_nil] at slash
    exact legible.plain '/' (by decide) (List.mem_of_getLast? slash)
  · have quoted : writtenInside name (earlier ++ [last]) =
        (name ++ earlier.flatMap Attribute.written ++ ' ' :: last.name ++
          '=' :: '"' :: Reference.escapeValue last.value) ++ ['"'] := by
      simp [writtenInside, Attribute.written]
    rw [List.concat_eq_append, quoted, List.getLast?_concat]
    decide

theorem Legible.elementName_writtenInside
    {name : Text} {attributes : List Attribute} (legible : Legible name attributes) :
    elementName (writtenInside name attributes) = name := by
  have plain : ∀ character ∈ name, (!isSpace character) = true := by
    intro character member
    rw [legible.noSpace character member]
    rfl
  rw [elementName, writtenInside, List.takeWhile_append_of_pos plain]
  cases attributes <;> exact List.append_nil name

theorem Legible.element_writtenInside
    {name : Text} {attributes : List Attribute} (legible : Legible name attributes) :
    element (writtenInside name attributes) = .ok ⟨name, attributes, .empty⟩ :=
  element_written legible.noSpace legible.toSound

end Tag

namespace Reader

theorem endTagName_of_noSpace
    {name : Text} (nonempty : name ≠ [])
    (noSpace : ∀ character ∈ name, Tag.isSpace character = false) :
    endTagName name = name := by
  have notBlank : ¬ (name.all Tag.isSpace = true) := by
    intro blank
    obtain ⟨first, member⟩ := List.exists_mem_of_ne_nil name nonempty
    have space := List.all_eq_true.mp blank first member
    rw [noSpace first member] at space
    cases space
  have kept : name.reverse.dropWhile Tag.isSpace = name.reverse := by
    cases backwards : name.reverse with
    | nil => rfl
    | cons last others =>
        have member : last ∈ name := by
          rw [← List.mem_reverse, backwards]
          exact List.mem_cons_self
        apply List.dropWhile_cons_of_neg
        rw [noSpace last member]
        decide
  rw [endTagName, if_neg notBlank, kept, List.reverse_reverse]

theorem next?_endTag
    {name : Text} (nonempty : name ≠ [])
    (noSpace : ∀ character ∈ name, Tag.isSpace character = false)
    (bland : ∀ character ∈ name, Bland character) (ahead : Text) (opened : List Text) :
    next? ⟨'<' :: '/' :: name ++ '>' :: ahead, name :: opened⟩ =
      .ok (some (.endTag name, ⟨ahead, opened⟩)) := by
  have closed := close_tagRest (follow_bland (by decide) bland) ahead
  have read : readMarkup (name :: opened) ('/' :: (name ++ '>' :: ahead)) =
      .ok (.endTag name, ⟨ahead, opened⟩) := by
    refine bind_eq_ok_iff.mpr ⟨_, closed, ?_⟩
    simp only [endTagName_of_noSpace nonempty noSpace, if_true]
  exact bind_eq_ok_iff.mpr ⟨_, read, rfl⟩

end Reader

/-- Adds content inside an open element, after what is there. -/
def OpenElement.extend (element : OpenElement) (content : Content) : OpenElement :=
  { element with behind := content.reverseOnto element.behind }

namespace Content

@[simp] theorem reverse_reverse (content : Content) : content.reverse.reverse = content := by
  rw [← ofNodes_nodes content.reverse.reverse]
  simp

end Content

namespace Element

theorem written_begins (root : Element) : ∃ markup, root.written = '<' :: markup := by
  obtain ⟨behind, whole⟩ := root.tagOpening_prefix
  exact ⟨_, by rw [← whole]; rfl⟩

variable (name : Text) (attributes : List Attribute)

theorem written_empty_append (ahead : Text) :
    (Element.mk name attributes .empty).written ++ ahead =
      '<' :: Tag.writtenInside name attributes ++ '/' :: '>' :: ahead := by
  simp [written, Content.written, tagOpening, Tag.writtenInside]

theorem written_append_of_ne {inner : Content} (inhabited : inner ≠ .empty) (ahead : Text) :
    (Element.mk name attributes inner).written ++ ahead =
      '<' :: Tag.writtenInside name attributes ++
        '>' :: (inner.written ++ '<' :: ('/' :: name ++ '>' :: ahead)) := by
  rw [written, Content.written_element_of_ne inhabited]
  simp [Content.written, tagOpening, Tag.writtenInside]

end Element

namespace Builder

variable {builder next : Builder} {outer : List OpenElement} {root : Option Element}
  {names : List Text}

theorem run_characters (characters ahead : Text) (parent : OpenElement) :
    run ⟨parent :: outer, root⟩ ⟨Reference.escapeText characters ++ '<' :: ahead, names⟩ =
      run ⟨parent.extend (Content.empty.prependText characters) :: outer, root⟩
        ⟨'<' :: ahead, names⟩ := by
  cases characters with
  | nil => rfl
  | cons first others =>
      have nonempty : Reference.escapeText (first :: others) ≠ [] := by
        rw [Reference.escapeText, List.flatMap_cons]
        apply List.append_ne_nil_of_left_ne_nil
        exact (Reference.escapeInText_spells first).ne_nil
      have plain : ∀ letter ∈ Reference.escapeText (first :: others), letter ≠ '<' := by
        intro letter member
        exact (Reference.escapeText_no_bracket _ letter member).1
      have stepped : step ⟨parent :: outer, root⟩
          (.text (Reference.escapeText (first :: others))) =
            .ok ⟨parent.push (.text (first :: others)) :: outer, root⟩ := by
        rw [step, Reference.unescape_escapeText]
        rfl
      exact run_of_step (Reader.next?_text nonempty plain (.inr ⟨ahead, rfl⟩) names) stepped

theorem waiting_text (waiting characters ahead : Text) (after : Content) :
    Reference.escapeText waiting ++ (Content.text characters after).written ++ ahead =
      Reference.escapeText (waiting ++ characters) ++ after.written ++ ahead := by
  simp [Content.written, Reference.escapeText]

theorem run_waiting
    (waiting : Text) (name : Text) (attributes : List Attribute) (inner after : Content)
    (ahead : Text) (parent : OpenElement) :
    run ⟨parent :: outer, root⟩ ⟨Reference.escapeText waiting ++
        (Content.element name attributes inner after).written ++ '<' :: ahead, names⟩ =
      run ⟨parent.extend (Content.empty.prependText waiting) :: outer, root⟩
        ⟨(Element.mk name attributes inner).written ++ (after.written ++ '<' :: ahead),
          names⟩ := by
  obtain ⟨markup, begins⟩ := Element.written_begins ⟨name, attributes, inner⟩
  have split : Reference.escapeText waiting ++
      (Content.element name attributes inner after).written ++ '<' :: ahead =
        Reference.escapeText waiting ++ '<' :: (markup ++ (after.written ++ '<' :: ahead)) := by
    rw [Content.written_element, begins]
    simp only [List.append_assoc, List.cons_append]
  rw [split, run_characters, begins, List.cons_append]

theorem run_startTag
    {name : Text} {attributes : List Attribute} {inner : Content}
    (legible : Tag.Legible name attributes) (balanced : Tag.Balanced name attributes)
    (inhabited : inner ≠ .empty) (ahead : Text) :
    builder.run ⟨(Element.mk name attributes inner).written ++ ahead, names⟩ =
      builder.openElement (Tag.writtenInside name attributes) >>= fun next =>
        next.run ⟨inner.written ++ '<' :: ('/' :: name ++ '>' :: ahead), name :: names⟩ := by
  have started := Reader.next?_startTag (legible.opensElement balanced)
    legible.getLast?_writtenInside names
    (inner.written ++ '<' :: ('/' :: name ++ '>' :: ahead))
  rw [legible.elementName_writtenInside] at started
  rw [Element.written_append_of_ne name attributes inhabited]
  exact run_of_event started

theorem openElement_writtenInside
    {name : Text} {attributes : List Attribute} (legible : Tag.Legible name attributes) :
    builder.openElement (Tag.writtenInside name attributes) =
      if builder.opened.isEmpty ∧ builder.root.isSome then .error .multipleRoots
      else .ok ⟨⟨name, attributes, .empty⟩ :: builder.opened, builder.root⟩ := by
  rw [openElement, legible.element_writtenInside]
  rfl

/-- Reading a written element attaches it, if what is inside is read to its end. -/
theorem run_element
    {name : Text} {attributes : List Attribute} {inner : Content}
    (legible : Tag.Legible name attributes) (balanced : Tag.Balanced name attributes)
    (inside : ∀ opened root ahead names,
      run ⟨⟨name, attributes, .empty⟩ :: opened, root⟩ ⟨inner.written ++ '<' :: ahead, names⟩ =
        run ⟨⟨name, attributes, inner.joined.reverse⟩ :: opened, root⟩ ⟨'<' :: ahead, names⟩)
    (attached : builder.attach ⟨name, attributes, inner.joined⟩ = .ok next) (ahead : Text) :
    builder.run ⟨(Element.mk name attributes inner).written ++ ahead, names⟩ =
      next.run ⟨ahead, names⟩ := by
  by_cases vacant : inner = .empty
  · subst vacant
    have stepped : builder.step (.emptyTag (Tag.writtenInside name attributes)) = .ok next := by
      rw [step, legible.element_writtenInside]
      exact attached
    have read := Reader.next?_emptyTag (legible.opensElement balanced) names ahead
    rw [Element.written_empty_append]
    exact run_of_step read stepped
  · have welcome : ¬ (builder.opened.isEmpty ∧ builder.root.isSome) := by
      intro refused
      obtain ⟨_ | ⟨parent, outer⟩, _ | complete⟩ := builder
      · cases refused.2
      · cases attached
      · cases refused.2
      · cases refused.1
    have ended := Reader.next?_endTag legible.nonempty legible.noSpace legible.bland ahead names
    have closed : step ⟨⟨name, attributes, inner.joined.reverse⟩ :: builder.opened, builder.root⟩
        (.endTag name) = .ok next := by
      simp only [step, closeElement, OpenElement.finish, Content.reverse_reverse]
      exact attached
    calc builder.run ⟨(Element.mk name attributes inner).written ++ ahead, names⟩
      _ = run ⟨⟨name, attributes, .empty⟩ :: builder.opened, builder.root⟩
          ⟨inner.written ++ '<' :: ('/' :: name ++ '>' :: ahead), name :: names⟩ := by
        rw [run_startTag legible balanced vacant, openElement_writtenInside legible,
          if_neg welcome]
        rfl
      _ = run ⟨⟨name, attributes, inner.joined.reverse⟩ :: builder.opened, builder.root⟩
          ⟨'<' :: ('/' :: name ++ '>' :: ahead), name :: names⟩ := inside _ _ _ _
      _ = next.run ⟨ahead, names⟩ := run_of_step ended closed

/-- Reading goes through written content to its end and adds its joined form, after
characters that were waiting. -/
theorem run_content
    {content : Content} (legible : content.EveryTag Tag.Legible)
    (balanced : content.EveryTag Tag.Balanced)
    (waiting ahead : Text) (parent : OpenElement) (outer : List OpenElement)
    (root : Option Element) (names : List Text) :
    run ⟨parent :: outer, root⟩
        ⟨Reference.escapeText waiting ++ content.written ++ '<' :: ahead, names⟩ =
      run ⟨parent.extend (content.joined.prependText waiting) :: outer, root⟩
        ⟨'<' :: ahead, names⟩ := by
  -- a text is not read by itself: it waits for the tag that ends it, so the characters that
  -- wait are part of the induction
  induction content generalizing waiting ahead parent outer root names with
  | empty =>
      rw [Content.written, List.append_nil]
      exact run_characters waiting ahead parent
  | text characters after induction =>
      rw [waiting_text, induction legible balanced, Content.prependText_append]
      rfl
  | element name attributes inner after inside behind =>
      obtain ⟨legibleTag, legibleInner, legibleAfter⟩ := legible
      obtain ⟨balancedTag, balancedInner, balancedAfter⟩ := balanced
      let flushed := parent.extend (Content.empty.prependText waiting)
      let child : Element := ⟨name, attributes, inner.joined⟩
      let rest := after.written ++ '<' :: ahead
      have attached : attach ⟨flushed :: outer, root⟩ child =
          .ok ⟨flushed.push (.element child) :: outer, root⟩ := rfl
      have read : ∀ opened root ahead names,
          run ⟨⟨name, attributes, .empty⟩ :: opened, root⟩
              ⟨inner.written ++ '<' :: ahead, names⟩ =
            run ⟨⟨name, attributes, inner.joined.reverse⟩ :: opened, root⟩
              ⟨'<' :: ahead, names⟩ := by
        intro opened root ahead names
        have whole := inside legibleInner balancedInner [] ahead ⟨name, attributes, .empty⟩
          opened root names
        rwa [Content.prependText_nil] at whole
      calc run ⟨parent :: outer, root⟩ ⟨Reference.escapeText waiting ++
          (Content.element name attributes inner after).written ++ '<' :: ahead, names⟩
        _ = run ⟨flushed :: outer, root⟩
            ⟨(Element.mk name attributes inner).written ++ rest, names⟩ :=
          run_waiting waiting name attributes inner after ahead parent
        _ = run ⟨flushed.push (.element child) :: outer, root⟩ ⟨rest, names⟩ :=
          run_element legibleTag balancedTag read attached rest
        _ = run ⟨(flushed.push (.element child)).extend after.joined :: outer, root⟩
            ⟨'<' :: ahead, names⟩ := by
          have whole := behind legibleAfter balancedAfter [] ahead
            (flushed.push (.element child)) outer root names
          rwa [Content.prependText_nil] at whole
        _ = run ⟨parent.extend ((Content.element name attributes inner after).joined.prependText
            waiting) :: outer, root⟩ ⟨'<' :: ahead, names⟩ := by
          cases waiting <;> rfl

theorem run_inside
    {inner : Content} (legible : inner.EveryTag Tag.Legible)
    (balanced : inner.EveryTag Tag.Balanced)
    (name : Text) (attributes : List Attribute) (outer : List OpenElement)
    (root : Option Element) (ahead : Text) (names : List Text) :
    run ⟨⟨name, attributes, .empty⟩ :: outer, root⟩ ⟨inner.written ++ '<' :: ahead, names⟩ =
      run ⟨⟨name, attributes, inner.joined.reverse⟩ :: outer, root⟩ ⟨'<' :: ahead, names⟩ := by
  have whole := run_content legible balanced [] ahead ⟨name, attributes, .empty⟩ outer root names
  rwa [Content.prependText_nil] at whole

end Builder

theorem Element.parse_written_eq (root : Element) :
    Element.parse root.written = Builder.start.run ⟨root.written ++ [], []⟩ := by
  obtain ⟨markup, begins⟩ := root.written_begins
  rw [List.append_nil, Element.parse, begins]
  rfl

/-- A tree with legible names is read back with its texts joined if each tag ends where it
was written to end. -/
theorem Element.parse_written
    {root : Element} (legible : root.EveryTag Tag.Legible)
    (balanced : root.EveryTag Tag.Balanced) :
    Element.parse root.written = .ok root.joined := by
  have attached : Builder.start.attach root.joined = .ok ⟨[], some root.joined⟩ := rfl
  have read := Builder.run_inside legible.2 balanced.2 root.name root.attributes
  rw [parse_written_eq]
  exact (Builder.run_element legible.1 balanced.1 read attached []).trans
    (Builder.run_of_end rfl)

end CleanSvg
