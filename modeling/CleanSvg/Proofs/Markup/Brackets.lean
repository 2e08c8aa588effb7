import CleanSvg.Proofs.Markup.AttributeNames
import CleanSvg.Proofs.Markup.JoinedTexts
import CleanSvg.Proofs.Markup.WrittenTags

/-!
# Counting closing brackets

Every tag ends with a closing bracket, and those inside tags stand in the names
of attributes, since values and texts are written with references.  A tree has
as many brackets as it is written with, and it is never read from a text that
has fewer of them.  So a tree that has lost a tag or a name with a bracket is
not written as the text that it was read from.
-/

namespace CleanSvg

/-- The closing brackets in the names of attributes. -/
def Tag.brackets (attributes : List Attribute) : Nat :=
  (attributes.flatMap Attribute.name).count '>'

namespace Content

/-- The tags of an element that has this content: one if there is nothing inside. -/
def tagCount (inner : Content) : Nat :=
  if inner = .empty then 1 else 2

/-- The closing brackets that content is written with. -/
def brackets : Content → Nat
  | .empty => 0
  | .text _ after => after.brackets
  | .element _ attributes inner after =>
      Tag.brackets attributes + inner.tagCount + inner.brackets + after.brackets

theorem tagCount_pos (inner : Content) : 0 < inner.tagCount := by
  unfold tagCount
  split <;> decide

theorem tagCount_le (inner : Content) : inner.tagCount ≤ 2 := by
  unfold tagCount
  split <;> decide

theorem tagCount_le_of_imp
    {kept inner : Content} (vacant : inner = .empty → kept = .empty) :
    kept.tagCount ≤ inner.tagCount := by
  unfold tagCount
  by_cases nothing : inner = .empty
  · exact Nat.le_of_eq (by rw [if_pos nothing, if_pos (vacant nothing)])
  · rw [if_neg nothing]
    exact kept.tagCount_le

theorem eq_empty_of_tagCount_le
    {kept inner : Content} (notFewer : inner.tagCount ≤ kept.tagCount)
    (vacant : kept = .empty) : inner = .empty := by
  apply Decidable.byContradiction
  intro inhabited
  rw [tagCount, tagCount, if_neg inhabited, if_pos vacant] at notFewer
  exact absurd notFewer (by decide)

theorem brackets_reverseOnto (content last : Content) :
    (content.reverseOnto last).brackets = content.brackets + last.brackets := by
  induction content generalizing last with
  | empty => exact (Nat.zero_add _).symm
  | text characters after induction => exact induction _
  | element name attributes inner after _ induction =>
      rw [reverseOnto, induction, brackets, brackets]
      omega

@[simp] theorem brackets_reverse (content : Content) :
    content.reverse.brackets = content.brackets :=
  brackets_reverseOnto content .empty

theorem everyTag_of_brackets_eq_zero
    {holds : Text → List Attribute → Prop} {content : Content}
    (none : content.brackets = 0) : content.EveryTag holds := by
  induction content with
  | empty => trivial
  | text characters after induction => exact induction none
  | element name attributes inner after =>
      have tags := inner.tagCount_pos
      rw [brackets] at none
      omega

end Content

def Element.brackets (element : Element) : Nat :=
  Tag.brackets element.attributes + element.content.tagCount + element.content.brackets

namespace Tag

theorem count_writtenAttributes (attributes : List Attribute) :
    (attributes.flatMap Attribute.written).count '>' = brackets attributes := by
  induction attributes with
  | nil => rfl
  | cons attr attributes induction =>
      have value : (Reference.escapeValue attr.value).count '>' = 0 :=
        List.count_eq_zero.mpr fun member =>
          (Reader.escapeValue_bland attr.value '>' member).1 rfl
      have written : attr.written.count '>' = attr.name.count '>' := by
        simp [Attribute.written, value]
      rw [brackets] at induction ⊢
      rw [List.flatMap_cons, List.flatMap_cons, List.count_append, List.count_append,
        written, induction]

end Tag

theorem Content.count_written
    {content : Content} (plain : content.EveryTag fun name _ => '>' ∉ name) :
    content.written.count '>' = content.brackets := by
  induction content with
  | empty => rfl
  | text characters after induction =>
      have noBracket : (Reference.escapeText characters).count '>' = 0 :=
        List.count_eq_zero.mpr fun member =>
          (Reference.escapeText_no_bracket characters '>' member).2 rfl
      rw [written, List.count_append, noBracket, Nat.zero_add, induction plain, brackets]
  | element name attributes inner after inside behind =>
      obtain ⟨plainTag, plainInner, plainAfter⟩ := plain
      have opening : (Element.tagOpening name attributes).count '>' = Tag.brackets attributes := by
        rw [Element.tagOpening, List.cons_append, List.count_cons_of_ne (by decide),
          List.count_append, List.count_eq_zero.mpr plainTag, Tag.count_writtenAttributes,
          Nat.zero_add]
      by_cases vacant : inner = .empty
      · subst vacant
        rw [written, List.count_append, opening, List.count_cons_of_ne (by decide),
          List.count_cons_self, behind plainAfter, brackets, tagCount, if_pos rfl, brackets]
        omega
      · rw [written_element_of_ne vacant, brackets, tagCount, if_neg vacant]
        simp only [List.count_append, List.count_cons_self, opening,
          inside plainInner, behind plainAfter, List.count_eq_zero.mpr plainTag,
          List.count_cons_of_ne (show '<' ≠ '>' by decide),
          List.count_cons_of_ne (show '/' ≠ '>' by decide)]
        omega

/-- Names of elements may bring in more brackets, but no fewer are written. -/
theorem Content.brackets_le_count_written (content : Content) :
    content.brackets ≤ content.written.count '>' := by
  induction content with
  | empty => exact Nat.le_refl _
  | text characters after induction =>
      rw [written, List.count_append]
      exact Nat.le_add_left_of_le induction
  | element name attributes inner after inside behind =>
      have opening : Tag.brackets attributes ≤ (Element.tagOpening name attributes).count '>' := by
        rw [Element.tagOpening, List.count_append, Tag.count_writtenAttributes]
        exact Nat.le_add_left _ _
      by_cases vacant : inner = .empty
      · subst vacant
        rw [written, List.count_append, List.count_cons_of_ne (by decide),
          List.count_cons_self, brackets, tagCount, if_pos rfl, brackets]
        omega
      · rw [written_element_of_ne vacant, brackets, tagCount, if_neg vacant]
        simp only [List.count_append, List.count_cons_self,
          List.count_cons_of_ne (show '<' ≠ '>' by decide),
          List.count_cons_of_ne (show '/' ≠ '>' by decide)]
        omega

theorem Element.count_written
    {root : Element} (plain : root.EveryTag fun name _ => '>' ∉ name) :
    root.written.count '>' = root.brackets :=
  Content.count_written ⟨plain.1, plain.2, trivial⟩

namespace Content

@[simp] theorem brackets_prependText (characters : Text) (content : Content) :
    (content.prependText characters).brackets = content.brackets := by
  cases content with
  | text more after => rfl
  | empty | element => cases characters <;> rfl

theorem tagCount_joined_le (inner : Content) : inner.joined.tagCount ≤ inner.tagCount := by
  apply tagCount_le_of_imp
  rintro rfl
  rfl

theorem brackets_joined_le (content : Content) : content.joined.brackets ≤ content.brackets := by
  induction content with
  | empty => exact Nat.le_refl _
  | text characters after induction =>
      rw [joined, brackets_prependText]
      exact induction
  | element name attributes inner after inside behind =>
      have tags := inner.tagCount_joined_le
      rw [joined, brackets, brackets]
      omega

theorem filled_of_brackets_le
    {content : Content} (notFewer : content.brackets ≤ content.joined.brackets) :
    content.Filled := by
  induction content with
  | empty => trivial
  | text characters after induction =>
      apply induction
      rwa [joined, brackets_prependText] at notFewer
  | element name attributes inner after inside behind =>
      have tags := inner.tagCount_joined_le
      have within := inner.brackets_joined_le
      have later := after.brackets_joined_le
      rw [joined, brackets, brackets] at notFewer
      refine ⟨eq_empty_of_tagCount_le ?_, inside ?_, behind ?_⟩ <;> omega

end Content

/-- An element that is written in the same way when its texts are joined is filled. -/
theorem Element.filled_of_written_joined
    {root : Element} (plain : root.EveryTag fun name _ => '>' ∉ name)
    (same : root.joined.written = root.written) : root.content.Filled := by
  have tags := root.content.tagCount_joined_le
  have counted := congrArg (List.count '>') same
  rw [count_written plain, count_written ((everyTag_joined root).mpr plain), brackets,
    brackets] at counted
  apply Content.filled_of_brackets_le
  simp only [joined] at counted
  omega

/-- The closing brackets that are used up by an event that may leave some in a tree. -/
def Event.brackets : Event → Nat
  | .startTag inside | .emptyTag inside => inside.count '>' + 1
  | .endTag _ => 1
  | .text _ | .characterData _ | .passedOver => 0

namespace Reader

theorem readBang_brackets
    {ahead rest : Text} {event : Event} (read : readBang ahead = .ok (event, rest)) :
    event.brackets = 0 := by
  rcases readBang_event read with ⟨characters, rfl⟩ | rfl
  · rfl
  · rfl

theorem readEndTag_brackets
    {opened : List Text} {ahead : Text} {event : Event} {after : Reader}
    (read : readEndTag opened ahead = .ok (event, after)) :
    event.brackets + after.ahead.count '>' ≤ ahead.count '>' := by
  obtain ⟨inside, rest, _, rfl, _, _, rfl, rfl⟩ := readEndTag_eq_ok read
  simp [Event.brackets, Nat.add_comm]

theorem readStartTag_brackets
    {opened : List Text} {ahead : Text} {event : Event} {after : Reader}
    (read : readStartTag opened ahead = .ok (event, after)) :
    event.brackets + after.ahead.count '>' ≤ ahead.count '>' := by
  obtain ⟨inside, rest, rfl, _, ⟨_, rfl, rfl⟩ | ⟨_, rfl, rfl⟩⟩ := readStartTag_eq_ok read
  · have shorter := (List.dropLast_sublist inside).count_le '>'
    simp only [Event.brackets, List.count_append, List.count_cons_self]
    omega
  · simp only [Event.brackets, List.count_append, List.count_cons_self]
    omega

/-- The brackets of an event are used up when it is read. -/
theorem next?_brackets
    {reader after : Reader} {event : Event} (read : reader.next? = .ok (some (event, after))) :
    event.brackets + after.ahead.count '>' ≤ reader.ahead.count '>' := by
  unfold next? at read
  split at read
  · cases read
  · rename_i ahead begun
    obtain ⟨⟨inner, rest⟩, found, same⟩ := bind_eq_ok_iff.mp read
    cases same
    rw [begun, List.count_cons_of_ne (by decide)]
    unfold readMarkup at found
    split at found
    · obtain ⟨⟨inner, rest⟩, bang, same⟩ := bind_eq_ok_iff.mp found
      cases same
      rw [readBang_brackets bang, List.count_cons_of_ne (by decide), Nat.zero_add]
      exact (readBang_suffix bang).sublist.count_le '>'
    · rw [List.count_cons_of_ne (by decide)]
      exact readEndTag_brackets found
    · obtain ⟨piece, passed, same⟩ := bind_eq_ok_iff.mp found
      cases same
      rw [Event.brackets, Nat.zero_add]
      exact (instruction_suffix passed).sublist.count_le '>'
    · cases found
    · exact readStartTag_brackets found
  · rename_i character ahead _ begun
    cases read
    rw [begun, Event.brackets, Nat.zero_add]
    apply List.Sublist.count_le
    exact (List.dropWhile_sublist _).cons character

end Reader

theorem Tag.brackets_le
    {inside : Text} {element : Element} (read : Tag.element inside = .ok element) :
    brackets element.attributes ≤ inside.count '>' := by
  obtain ⟨attributes, attributesRead, same⟩ := bind_eq_ok_iff.mp read
  cases same
  have names := attributesFrom_sublist attributesRead
  exact (names.trans (List.dropWhile_sublist _)).count_le '>'

/-- The closing brackets of an element, its end tag apart. -/
def OpenElement.brackets (element : OpenElement) : Nat :=
  Tag.brackets element.attributes + 1 + element.behind.brackets

namespace Builder

def brackets (builder : Builder) : Nat :=
  builder.opened.foldr (fun element others => element.brackets + others)
    ((builder.root.map Element.brackets).getD 0)

variable {builder next : Builder}

theorem brackets_attach
    {element : Element} (attached : builder.attach element = .ok next) :
    next.brackets = builder.brackets + element.brackets := by
  obtain ⟨_ | ⟨parent, outer⟩, root⟩ := builder
  · cases root with
    | some root => cases attached
    | none =>
        cases attached
        simp [brackets]
  · cases attached
    simp only [brackets, List.foldr_cons, OpenElement.brackets,
      OpenElement.push, Content.cons, Content.brackets, Element.brackets]
    omega

theorem brackets_attachText
    {characters : Text} (attached : builder.attachText characters = .ok next) :
    next.brackets = builder.brackets := by
  obtain ⟨_ | ⟨parent, outer⟩, root⟩ := builder
  · simp only [attachText] at attached
    split at attached
    · cases attached
      rfl
    · cases attached
  · cases attached
    rfl

theorem brackets_openElement
    {inside : Text} (result : builder.openElement inside = .ok next) :
    next.brackets ≤ builder.brackets + (inside.count '>' + 1) := by
  unfold openElement at result
  split at result
  · cases result
  · obtain ⟨element, read, same⟩ := bind_eq_ok_iff.mp result
    cases same
    have names := Tag.brackets_le read
    simp only [brackets, List.foldr_cons, OpenElement.brackets, Content.brackets]
    omega

theorem brackets_closeElement (result : builder.closeElement = .ok next) :
    next.brackets ≤ builder.brackets + 1 := by
  obtain ⟨_ | ⟨innermost, outer⟩, root⟩ := builder
  · cases result
  · have attached := brackets_attach result
    have tags := innermost.behind.reverse.tagCount_le
    simp only [brackets, List.foldr_cons, OpenElement.brackets,
      OpenElement.finish, Element.brackets, Content.brackets_reverse] at attached ⊢
    omega

theorem brackets_step {event : Event} (result : builder.step event = .ok next) :
    next.brackets ≤ builder.brackets + event.brackets := by
  cases event with
  | startTag inside => exact brackets_openElement result
  | emptyTag inside =>
      obtain ⟨element, read, attached⟩ := bind_eq_ok_iff.mp result
      have names := Tag.brackets_le read
      rw [brackets_attach attached, Event.brackets, Element.brackets,
        Tag.element_content read, Content.brackets, Content.tagCount, if_pos rfl]
      omega
  | endTag name => exact brackets_closeElement result
  | text written =>
      obtain ⟨characters, _, attached⟩ := bind_eq_ok_iff.mp result
      exact Nat.le_of_eq (brackets_attachText attached)
  | characterData characters => exact Nat.le_of_eq (brackets_attachText result)
  | passedOver =>
      cases result
      exact Nat.le_refl _

theorem brackets_finish {root : Element} (finished : builder.finish = .ok root) :
    root.brackets = builder.brackets := by
  obtain ⟨_ | ⟨innermost, outer⟩, complete⟩ := builder
  · cases complete with
    | none => cases finished
    | some complete =>
        cases finished
        rfl
  · cases finished

/-- The brackets of what was built and those that lie ahead are never fewer than those of
the tree that comes of them. -/
theorem brackets_run
    {reader : Reader} {root : Element} (parsed : builder.run reader = .ok root) :
    root.brackets ≤ builder.brackets + reader.ahead.count '>' := by
  induction builder, reader using Builder.run.induct with
  | case1 builder reader cause read =>
      rw [run_of_error read] at parsed
      cases parsed
  | case2 builder reader read =>
      rw [run_of_end read] at parsed
      rw [brackets_finish parsed]
      exact Nat.le_add_right _ _
  | case3 builder reader event after read induction =>
      rw [run_of_event read] at parsed
      obtain ⟨next, stepped, parsed⟩ := bind_eq_ok_iff.mp parsed
      have built := brackets_step stepped
      have used := Reader.next?_brackets read
      have later := induction next parsed
      omega

end Builder

/-- A tree has no more closing brackets than the text that it is read from. -/
theorem Element.brackets_le_of_parse
    {text : Text} {root : Element} (parsed : Element.parse text = .ok root) :
    root.brackets ≤ text.count '>' := by
  have marked : (Reader.ofText text).ahead.count '>' ≤ text.count '>' := by
    unfold Reader.ofText
    split
    · exact (List.sublist_cons_self _ _).count_le '>'
    · exact Nat.le_refl _
  have read := Builder.brackets_run parsed
  rw [show Builder.start.brackets = 0 from rfl, Nat.zero_add] at read
  exact Nat.le_trans read marked

end CleanSvg
