import CleanSvg.Markup.Builder
import CleanSvg.Proofs.Markup.Quotes

/-!
# What every tag of a tree was read from

A tree is built from tags one by one, and building never looks into them again.
Hence a property of tags that every reading of one ensures holds for all the
elements of a parsed tree, however deep they stand.
-/

namespace CleanSvg

/-- Every element in content has a name and attributes of a kind. -/
def Content.EveryTag (holds : Text → List Attribute → Prop) : Content → Prop
  | .empty => True
  | .text _ after => after.EveryTag holds
  | .element name attributes inner after =>
      holds name attributes ∧ inner.EveryTag holds ∧ after.EveryTag holds

def Element.EveryTag (holds : Text → List Attribute → Prop) (element : Element) : Prop :=
  holds element.name element.attributes ∧ element.content.EveryTag holds

structure Builder.EveryTag (holds : Text → List Attribute → Prop) (builder : Builder) :
    Prop where
  opened : ∀ element ∈ builder.opened,
    holds element.name element.attributes ∧ element.behind.EveryTag holds
  root : ∀ element, builder.root = some element → element.EveryTag holds

/-- The tag of an event comes to its end outside quotes. -/
def Event.Bracketed : Event → Prop
  | .startTag inside | .emptyTag inside => (Reader.follow none inside).isSome = true
  | _ => True

/-- The tag of an event, if it is one, has a name and attributes of a kind. -/
def Event.EveryTag (holds : Text → List Attribute → Prop) : Event → Prop
  | .startTag inside | .emptyTag inside =>
      ∀ element, Tag.element inside = .ok element → holds element.name element.attributes
  | _ => True

/-- Reading a tag always gives a name and attributes of a kind. -/
def Tag.Ensures (holds : Text → List Attribute → Prop) : Prop :=
  ∀ inside element, (Reader.follow none inside).isSome = true →
    Tag.element inside = .ok element → holds element.name element.attributes

variable {holds : Text → List Attribute → Prop}

namespace Content

instance decidableEveryTag [∀ name attributes, Decidable (holds name attributes)] :
    (content : Content) → Decidable (content.EveryTag holds)
  | .empty => inferInstanceAs (Decidable True)
  | .text _ after => decidableEveryTag after
  | .element name attributes inner after =>
      have := decidableEveryTag inner
      have := decidableEveryTag after
      inferInstanceAs (Decidable (holds name attributes ∧ _ ∧ _))

theorem everyTag_iff_elements {content : Content} :
    content.EveryTag holds ↔ ∀ element ∈ content.elements, element.EveryTag holds := by
  induction content with
  | empty => simp [EveryTag, elements]
  | text characters after induction => simp [EveryTag, elements, induction]
  | element name attributes inner after _ induction =>
      simp [EveryTag, elements, induction, Element.EveryTag, and_assoc]

theorem EveryTag.imp
    {others : Text → List Attribute → Prop} {content : Content}
    (every : content.EveryTag holds)
    (weaker : ∀ name attributes, holds name attributes → others name attributes) :
    content.EveryTag others := by
  induction content with
  | empty => trivial
  | text characters after induction => exact induction every
  | element name attributes inner after inside behind =>
      exact ⟨weaker name attributes every.1, inside every.2.1, behind every.2.2⟩

theorem everyTag_reverseOnto (content last : Content) :
    (content.reverseOnto last).EveryTag holds ↔
      content.EveryTag holds ∧ last.EveryTag holds := by
  induction content generalizing last with
  | empty => simp [reverseOnto, EveryTag]
  | text characters after induction => simp [reverseOnto, EveryTag, induction]
  | element name attributes inner after _ induction =>
      rw [reverseOnto, induction, EveryTag, EveryTag]
      constructor
      · rintro ⟨others, tag, inside, behind⟩
        exact ⟨⟨tag, inside, others⟩, behind⟩
      · rintro ⟨⟨tag, inside, others⟩, behind⟩
        exact ⟨others, tag, inside, behind⟩

@[simp] theorem everyTag_reverse (content : Content) :
    content.reverse.EveryTag holds ↔ content.EveryTag holds := by
  simp [reverse, everyTag_reverseOnto, EveryTag]

end Content

theorem Element.EveryTag.imp
    {others : Text → List Attribute → Prop} {element : Element}
    (every : element.EveryTag holds)
    (weaker : ∀ name attributes, holds name attributes → others name attributes) :
    element.EveryTag others :=
  ⟨weaker element.name element.attributes every.1, every.2.imp weaker⟩

instance [∀ name attributes, Decidable (holds name attributes)] (element : Element) :
    Decidable (element.EveryTag holds) :=
  inferInstanceAs (Decidable (_ ∧ _))

namespace Reader

/-- The rest of a start tag or of an empty one goes to the first bracket outside quotes. -/
theorem readStartTag_eq_ok
    {opened : List Text} {ahead : Text} {event : Event} {after : Reader}
    (read : readStartTag opened ahead = .ok (event, after)) :
    ∃ inside rest, ahead = inside ++ '>' :: rest ∧ follow none inside = some none ∧
      ((inside.getLast? = some '/' ∧ event = .emptyTag inside.dropLast ∧
          after = ⟨rest, opened⟩) ∨
        (inside.getLast? ≠ some '/' ∧ event = .startTag inside ∧
          after = ⟨rest, Tag.elementName inside :: opened⟩)) := by
  obtain ⟨piece, closed, read⟩ := bind_eq_ok_iff.mp read
  rw [close] at closed
  split at closed
  · rename_i found
    cases closed
    obtain ⟨inside, rest, split, followed, rfl⟩ := tagRest_read_eq_some_iff.mp found
    refine ⟨inside, rest, split, followed, ?_⟩
    split at read
    · rename_i slash
      cases read
      exact Or.inl ⟨slash, rfl, rfl⟩
    · rename_i noSlash
      cases read
      exact Or.inr ⟨noSlash, rfl, rfl⟩
  · cases closed

theorem readStartTag_bracketed
    {opened : List Text} {ahead : Text} {event : Event} {after : Reader}
    (read : readStartTag opened ahead = .ok (event, after)) : event.Bracketed := by
  obtain ⟨inside, rest, _, followed, ⟨_, rfl, _⟩ | ⟨_, rfl, _⟩⟩ := readStartTag_eq_ok read
  · apply follow_of_prefix (List.dropLast_prefix inside)
    rw [followed]
    rfl
  · exact Option.isSome_iff_exists.mpr ⟨none, followed⟩

theorem readBang_event
    {ahead rest : Text} {event : Event} (read : readBang ahead = .ok (event, rest)) :
    (∃ characters, event = .characterData characters) ∨ event = .passedOver := by
  unfold readBang at read
  split at read
  · obtain ⟨piece, _, same⟩ := bind_eq_ok_iff.mp read
    cases same
    exact Or.inl ⟨piece.value, rfl⟩
  · obtain ⟨_, _, same⟩ := bind_eq_ok_iff.mp read
    cases same
    exact Or.inr rfl
  · split at read
    · obtain ⟨_, _, same⟩ := bind_eq_ok_iff.mp read
      cases same
      exact Or.inr rfl
    · cases read
  · cases read

theorem readEndTag_eq_ok
    {opened : List Text} {ahead : Text} {event : Event} {after : Reader}
    (read : readEndTag opened ahead = .ok (event, after)) :
    ∃ inside rest outer, ahead = inside ++ '>' :: rest ∧ follow none inside = some none ∧
      opened = endTagName inside :: outer ∧ event = .endTag (endTagName inside) ∧
        after = ⟨rest, outer⟩ := by
  obtain ⟨piece, closed, checked⟩ := bind_eq_ok_iff.mp read
  rw [close] at closed
  split at closed
  · rename_i found
    cases closed
    obtain ⟨inside, rest, split, followed, rfl⟩ := tagRest_read_eq_some_iff.mp found
    simp only at checked
    split at checked
    · cases checked
    · split at checked
      · rename_i named
        cases checked
        exact ⟨inside, rest, _, split, followed, by rw [named], rfl, rfl⟩
      · cases checked
  · cases closed

theorem next?_bracketed
    {reader after : Reader} {event : Event}
    (read : reader.next? = .ok (some (event, after))) : event.Bracketed := by
  unfold next? at read
  split at read
  · cases read
  · obtain ⟨⟨inner, rest⟩, found, same⟩ := bind_eq_ok_iff.mp read
    cases same
    unfold readMarkup at found
    split at found
    · obtain ⟨⟨inner, rest⟩, bang, same⟩ := bind_eq_ok_iff.mp found
      cases same
      rcases readBang_event bang with ⟨characters, rfl⟩ | rfl
      · trivial
      · trivial
    · obtain ⟨_, _, _, _, _, _, rfl, _⟩ := readEndTag_eq_ok found
      trivial
    · obtain ⟨_, _, same⟩ := bind_eq_ok_iff.mp found
      cases same
      trivial
    · cases found
    · exact readStartTag_bracketed found
  · cases read
    trivial

end Reader

namespace Event

theorem everyTag_startTag_iff
    {inside : Text} {element : Element} (read : Tag.element inside = .ok element) :
    (startTag inside).EveryTag holds ↔ holds element.name element.attributes := by
  simp [EveryTag, read]

theorem everyTag_emptyTag_iff
    {inside : Text} {element : Element} (read : Tag.element inside = .ok element) :
    (emptyTag inside).EveryTag holds ↔ holds element.name element.attributes := by
  simp [EveryTag, read]

theorem Bracketed.everyTag
    {event : Event} (bracketed : event.Bracketed) (ensures : Tag.Ensures holds) :
    event.EveryTag holds := by
  cases event with
  | startTag inside | emptyTag inside =>
      exact fun element read => ensures inside element bracketed read
  | _ => trivial

end Event

theorem Tag.element_content
    {inside : Text} {element : Element} (read : Tag.element inside = .ok element) :
    element.content = .empty := by
  obtain ⟨_, _, same⟩ := bind_eq_ok_iff.mp read
  cases same
  rfl

namespace Builder

theorem run_of_error
    {builder : Builder} {reader : Reader} {cause : ReadError}
    (read : reader.next? = .error cause) :
    builder.run reader = .error (.malformedMarkup cause) := by
  rw [run]
  split <;> simp_all

theorem run_of_end
    {builder : Builder} {reader : Reader} (read : reader.next? = .ok none) :
    builder.run reader = builder.finish := by
  rw [run]
  split <;> simp_all

theorem run_of_event
    {builder : Builder} {reader after : Reader} {event : Event}
    (read : reader.next? = .ok (some (event, after))) :
    builder.run reader = builder.step event >>= fun next => next.run after := by
  rw [run]
  split <;> simp_all

theorem run_of_step
    {builder next : Builder} {reader after : Reader} {event : Event}
    (read : reader.next? = .ok (some (event, after)))
    (stepped : builder.step event = .ok next) : builder.run reader = next.run after := by
  rw [run_of_event read, stepped]
  rfl

theorem everyTag_start : start.EveryTag holds :=
  ⟨nofun, nofun⟩

theorem everyTag_cons_iff
    {innermost : OpenElement} {outer : List OpenElement} {root : Option Element} :
    Builder.EveryTag holds ⟨innermost :: outer, root⟩ ↔
      (holds innermost.name innermost.attributes ∧ innermost.behind.EveryTag holds) ∧
        Builder.EveryTag holds ⟨outer, root⟩ := by
  constructor
  · rintro ⟨opened, complete⟩
    obtain ⟨first, others⟩ := List.forall_mem_cons.mp opened
    exact ⟨first, others, complete⟩
  · rintro ⟨first, others, complete⟩
    exact ⟨List.forall_mem_cons.mpr ⟨first, others⟩, complete⟩

theorem everyTag_attach_iff
    {builder next : Builder} {element : Element} (attached : builder.attach element = .ok next) :
    next.EveryTag holds ↔ builder.EveryTag holds ∧ element.EveryTag holds := by
  obtain ⟨_ | ⟨parent, outer⟩, root⟩ := builder
  · cases root with
    | some root => cases attached
    | none =>
        cases attached
        constructor
        · intro built
          exact ⟨everyTag_start, built.root element rfl⟩
        · rintro ⟨_, complete⟩
          refine ⟨nofun, ?_⟩
          intro root same
          cases same
          exact complete
  · cases attached
    rw [everyTag_cons_iff, everyTag_cons_iff]
    constructor
    · rintro ⟨⟨tag, attributes, inside, behind⟩, others⟩
      exact ⟨⟨⟨tag, behind⟩, others⟩, attributes, inside⟩
    · rintro ⟨⟨⟨tag, behind⟩, others⟩, attributes, inside⟩
      exact ⟨⟨tag, attributes, inside, behind⟩, others⟩

theorem everyTag_attachText_iff
    {builder next : Builder} {characters : Text}
    (attached : builder.attachText characters = .ok next) :
    next.EveryTag holds ↔ builder.EveryTag holds := by
  obtain ⟨_ | ⟨parent, outer⟩, root⟩ := builder
  · simp only [Builder.attachText] at attached
    split at attached
    · cases attached
      rfl
    · cases attached
  · cases attached
    rw [everyTag_cons_iff, everyTag_cons_iff]
    rfl

theorem everyTag_openElement_iff
    {builder next : Builder} {inside : Text} (result : builder.openElement inside = .ok next) :
    next.EveryTag holds ↔
      builder.EveryTag holds ∧ (Event.startTag inside).EveryTag holds := by
  unfold Builder.openElement at result
  split at result
  · cases result
  · obtain ⟨element, read, same⟩ := bind_eq_ok_iff.mp result
    cases same
    rw [everyTag_cons_iff, Event.everyTag_startTag_iff read]
    constructor
    · rintro ⟨⟨tag, _⟩, built⟩
      exact ⟨built, tag⟩
    · rintro ⟨built, tag⟩
      exact ⟨⟨tag, trivial⟩, built⟩

theorem everyTag_closeElement_iff
    {builder next : Builder} (result : builder.closeElement = .ok next) :
    next.EveryTag holds ↔ builder.EveryTag holds := by
  obtain ⟨_ | ⟨innermost, outer⟩, root⟩ := builder
  · cases result
  · rw [everyTag_attach_iff result, everyTag_cons_iff, OpenElement.finish, Element.EveryTag,
      Content.everyTag_reverse, and_comm]

/-- Taking one event in keeps the tags of what was built, and adds the tag of the event and
no other. -/
theorem everyTag_step_iff
    {builder next : Builder} {event : Event} (result : builder.step event = .ok next) :
    next.EveryTag holds ↔ builder.EveryTag holds ∧ event.EveryTag holds := by
  cases event with
  | startTag inside => exact everyTag_openElement_iff result
  | emptyTag inside =>
      obtain ⟨element, read, attached⟩ := bind_eq_ok_iff.mp result
      rw [everyTag_attach_iff attached, Event.everyTag_emptyTag_iff read, Element.EveryTag,
        Tag.element_content read]
      simp [Content.EveryTag]
  | endTag name =>
      rw [everyTag_closeElement_iff result]
      exact (and_iff_left trivial).symm
  | text written =>
      obtain ⟨characters, _, attached⟩ := bind_eq_ok_iff.mp result
      rw [everyTag_attachText_iff attached]
      exact (and_iff_left trivial).symm
  | characterData characters =>
      rw [everyTag_attachText_iff result]
      exact (and_iff_left trivial).symm
  | passedOver =>
      cases result
      exact (and_iff_left trivial).symm

theorem everyTag_finish_iff
    {builder : Builder} {root : Element} (finished : builder.finish = .ok root) :
    root.EveryTag holds ↔ builder.EveryTag holds := by
  obtain ⟨_ | ⟨innermost, outer⟩, complete⟩ := builder
  · cases complete with
    | none => cases finished
    | some complete =>
        cases finished
        constructor
        · intro every
          refine ⟨nofun, ?_⟩
          intro other same
          cases same
          exact every
        · intro built
          exact built.root root rfl
  · cases finished

theorem EveryTag.run
    {builder : Builder} {reader : Reader} {root : Element} (ensures : Tag.Ensures holds)
    (built : builder.EveryTag holds) (parsed : builder.run reader = .ok root) :
    root.EveryTag holds := by
  induction builder, reader using Builder.run.induct with
  | case1 builder reader cause read =>
      rw [run_of_error read] at parsed
      cases parsed
  | case2 builder reader read =>
      rw [run_of_end read] at parsed
      exact (everyTag_finish_iff parsed).mpr built
  | case3 builder reader event after read induction =>
      rw [run_of_event read] at parsed
      obtain ⟨next, stepped, parsed⟩ := bind_eq_ok_iff.mp parsed
      have tag := (Reader.next?_bracketed read).everyTag ensures
      exact induction next ((everyTag_step_iff stepped).mpr ⟨built, tag⟩) parsed

/-- What was built is never taken back, so its tags are among those of the result. -/
theorem EveryTag.of_run
    {builder : Builder} {reader : Reader} {root : Element}
    (parsed : builder.run reader = .ok root) (every : root.EveryTag holds) :
    builder.EveryTag holds := by
  induction builder, reader using Builder.run.induct with
  | case1 builder reader cause read =>
      rw [run_of_error read] at parsed
      cases parsed
  | case2 builder reader read =>
      rw [run_of_end read] at parsed
      exact (everyTag_finish_iff parsed).mp every
  | case3 builder reader event after read induction =>
      rw [run_of_event read] at parsed
      obtain ⟨next, stepped, parsed⟩ := bind_eq_ok_iff.mp parsed
      exact ((everyTag_step_iff stepped).mp (induction next parsed)).1

end Builder

theorem Element.everyTag_parse
    {text : Text} {root : Element} (ensures : Tag.Ensures holds)
    (parsed : Element.parse text = .ok root) : root.EveryTag holds :=
  Builder.everyTag_start.run ensures parsed

end CleanSvg
