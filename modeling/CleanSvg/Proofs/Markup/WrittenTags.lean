import CleanSvg.Markup.Written
import CleanSvg.Proofs.Markup.AttributeNames
import CleanSvg.Proofs.Markup.References

/-!
# Reading the tags that are written

A value is written between quotes and holds none itself, so it leaves the quotes
of its tag as they were before it.  Hence only names decide where a written tag
ends, and a tag that ends where it should is read back attribute by attribute.
-/

namespace CleanSvg

namespace Reader

/-- The character neither opens nor closes quotes and ends no tag. -/
def Bland (character : Char) : Prop :=
  character ≠ '>' ∧ character ≠ '"' ∧ character ≠ '\''

instance (character : Char) : Decidable (Bland character) :=
  inferInstanceAs (Decidable (_ ∧ _ ∧ _))

theorem quoteStep_bland
    {quote : Option Char} {character : Char} (state : quote ∈ quoteStates)
    (bland : Bland character) : quoteStep quote character = some quote := by
  obtain ⟨noBracket, noDouble, noSingle⟩ := bland
  rcases mem_quoteStates.mp state with rfl | rfl | rfl
  · simp [quoteStep, noBracket, noDouble, noSingle]
  · simp [quoteStep, noDouble]
  · simp [quoteStep, noSingle]

theorem follow_bland
    {quote : Option Char} {text : Text} (state : quote ∈ quoteStates)
    (bland : ∀ character ∈ text, Bland character) : follow quote text = some quote := by
  induction text with
  | nil => rfl
  | cons character text induction =>
      obtain ⟨first, others⟩ := List.forall_mem_cons.mp bland
      rw [follow, quoteStep_bland state first]
      exact induction others

theorem escapeInValue_bland (character : Char) :
    ∀ letter ∈ Reference.escapeInValue character, Bland letter := by
  unfold Reference.escapeInValue
  split
  · exact forall_mem_of_all rfl
  · exact forall_mem_of_all rfl
  · exact forall_mem_of_all rfl
  · exact forall_mem_of_all rfl
  · exact forall_mem_of_all rfl
  · rename_i noLess noBracket noAnd noSingle noDouble
    intro letter member
    rw [List.mem_singleton.mp member]
    exact ⟨noBracket, noDouble, noSingle⟩

theorem escapeValue_bland (value : Text) :
    ∀ letter ∈ Reference.escapeValue value, Bland letter := by
  intro letter member
  obtain ⟨character, _, inside⟩ := List.mem_flatMap.mp member
  exact escapeInValue_bland character letter inside

theorem follow_value
    {quote : Option Char} (state : quote ∈ quoteStates) (value : Text) :
    follow quote ('=' :: '"' :: Reference.escapeValue value ++ ['"']) = some quote := by
  have bland := escapeValue_bland value
  rw [follow_append]
  rcases mem_quoteStates.mp state with rfl | rfl | rfl
  · have opened : follow (some '"') (Reference.escapeValue value) = some (some '"') :=
      follow_bland (by decide) bland
    simp [follow, quoteStep, opened]
  · have closed : follow none (Reference.escapeValue value) = some none :=
      follow_bland (by decide) bland
    simp [follow, quoteStep, closed]
  · have hidden : follow (some '\'') (Reference.escapeValue value) = some (some '\'') :=
      follow_bland (by decide) bland
    simp [follow, quoteStep, hidden]

/-- Of a written attribute only the name matters to the quotes. -/
theorem follow_written
    {quote : Option Char} (state : quote ∈ quoteStates) (attr : Attribute) :
    follow quote attr.written = follow quote attr.name := by
  have spaced : follow quote [' '] = some quote :=
    follow_bland state (forall_mem_of_all rfl)
  have split : attr.written = [' '] ++
      (attr.name ++ ('=' :: '"' :: Reference.escapeValue attr.value ++ ['"'])) := by
    simp [Attribute.written]
  rw [split, follow_append, spaced, Option.bind_some, follow_append]
  cases followed : follow quote attr.name with
  | none => rfl
  | some after => exact follow_value (follow_mem state followed) attr.value

end Reader

namespace Tag

theorem readValue_written (inside value ahead : Text) :
    readValue inside ('"' :: Reference.escapeValue value ++ '"' :: ahead) =
      .ok (Reference.escapeValue value, ahead) := by
  have unquoted : ∀ letter ∈ Reference.escapeValue value, (letter != '"') = true := by
    intro letter member
    exact bne_iff_ne.mpr (Reader.escapeValue_bland value letter member).2.1
  have body : (Reference.escapeValue value ++ '"' :: ahead).dropWhile (· != '"') =
      '"' :: ahead := by
    rw [List.dropWhile_append_of_pos unquoted]
    rfl
  have read : (Reference.escapeValue value ++ '"' :: ahead).takeWhile (· != '"') =
      Reference.escapeValue value := by
    rw [List.takeWhile_append_of_pos unquoted]
    exact List.append_nil _
  rw [readValue, List.cons_append, List.dropWhile_cons_of_neg (by decide)]
  simp only [true_or, if_true, body, read]

/-- A written attribute is read back unless its name has come before. -/
theorem nextAttribute?_written
    {attr : Attribute} {earlier : List RawAttribute} (readable : Readable attr.name)
    (fresh : ∀ raw ∈ earlier, raw.name ≠ attr.name) (inside ahead : Text) :
    ∃ place, nextAttribute? inside earlier (attr.written ++ ahead) =
      .ok (some (⟨attr.name, place, Reference.escapeValue attr.value⟩, ahead)) := by
  obtain ⟨name, value⟩ := attr
  obtain ⟨nonempty, noSpace, noEquals, _⟩ := readable
  cases name with
  | nil => exact absurd rfl nonempty
  | cons first others =>
      obtain ⟨begins, noSpace⟩ := List.forall_mem_cons.mp noSpace
      have continues : ∀ letter ∈ others, continuesName letter = true := by
        intro letter member
        refine continuesName_iff.mpr ⟨?_, noSpace letter member⟩
        rintro rfl
        exact noEquals member
      let rest := '=' :: '"' :: Reference.escapeValue value ++ '"' :: ahead
      have split : (Attribute.mk (first :: others) value).written ++ ahead =
          ' ' :: first :: (others ++ rest) := by
        simp [Attribute.written, rest]
      have begun : (' ' :: first :: (others ++ rest)).dropWhile isSpace =
          first :: (others ++ rest) := by
        rw [List.dropWhile_cons_of_pos (by decide),
          List.dropWhile_cons_of_neg (by rw [begins]; decide)]
      have name : (others ++ rest).takeWhile continuesName = others := by
        rw [List.takeWhile_append_of_pos continues]
        exact List.append_nil others
      have afterName : (others ++ rest).dropWhile continuesName = rest := by
        rw [List.dropWhile_append_of_pos continues]
        rfl
      have unused : (earlier.find? fun raw => raw.name == first :: others) = none := by
        refine List.find?_eq_none.mpr fun raw member same => ?_
        exact fresh raw member (eq_of_beq same)
      have read := readValue_written inside value ahead
      refine ⟨first :: (others ++ rest), ?_⟩
      have atEquals : rest.dropWhile isSpace =
          '=' :: ('"' :: Reference.escapeValue value ++ '"' :: ahead) := rfl
      rw [nextAttribute?, split, begun]
      simp only [name, afterName, atEquals, unused, read]
      rfl

/-- Written attributes are read back before whatever comes after them, the names being
readable and no two the same but for the case of ASCII letters. -/
theorem attributesFrom_written_append
    {attributes : List Attribute} {earlier : List RawAttribute}
    (readable : ∀ attr ∈ attributes, Readable attr.name)
    (fresh : ∀ attr ∈ attributes, ∀ raw ∈ earlier,
      Text.equalsIgnoringAsciiCase raw.name attr.name = false)
    (distinct : Distinct attributes) (inside ahead : Text) :
    ∃ before, attributesFrom inside earlier (attributes.flatMap Attribute.written ++ ahead) =
      (attributesFrom inside before ahead).map (attributes ++ ·) := by
  induction attributes generalizing earlier with
  | nil =>
      refine ⟨earlier, ?_⟩
      show attributesFrom inside earlier ahead = (attributesFrom inside earlier ahead).map id
      cases attributesFrom inside earlier ahead <;> rfl
  | cons attr attributes induction =>
      obtain ⟨readableFirst, readable⟩ := List.forall_mem_cons.mp readable
      obtain ⟨freshFirst, fresh⟩ := List.forall_mem_cons.mp fresh
      obtain ⟨apart, distinct⟩ := List.pairwise_cons.mp distinct
      have unused : ∀ raw ∈ earlier, raw.name ≠ attr.name := by
        intro raw member same
        have differs := freshFirst raw member
        rw [same, Text.equalsIgnoringAsciiCase, beq_self_eq_true] at differs
        cases differs
      obtain ⟨place, next⟩ := nextAttribute?_written readableFirst unused inside
        (attributes.flatMap Attribute.written ++ ahead)
      have noDuplicate : ¬ (earlier.any fun raw =>
          Text.equalsIgnoringAsciiCase raw.name attr.name) = true := by
        rw [Bool.not_eq_true, List.any_eq_false]
        intro raw member
        rw [freshFirst raw member]
        decide
      have freshRest : ∀ later ∈ attributes,
          ∀ raw ∈ RawAttribute.mk attr.name place (Reference.escapeValue attr.value) :: earlier,
            Text.equalsIgnoringAsciiCase raw.name later.name = false := by
        intro later member
        exact List.forall_mem_cons.mpr ⟨apart later member, fresh later member⟩
      obtain ⟨before, rest⟩ := induction readable freshRest distinct
      refine ⟨before, ?_⟩
      rw [List.flatMap_cons, List.append_assoc, attributesFrom_of_next next,
        if_neg noDuplicate]
      simp only [Reference.unescape_escapeValue, rest]
      cases attributesFrom inside before ahead <;> rfl

/-- A written attribute is told from what follows it, since it is read back from both. -/
theorem written_append_inj
    {left right : Attribute} {leftRest rightRest : Text} (readableLeft : Readable left.name)
    (readableRight : Readable right.name)
    (same : left.written ++ leftRest = right.written ++ rightRest) :
    left = right ∧ leftRest = rightRest := by
  obtain ⟨_, readLeft⟩ := @nextAttribute?_written left [] readableLeft nofun [] leftRest
  obtain ⟨_, readRight⟩ := @nextAttribute?_written right [] readableRight nofun [] rightRest
  rw [same, readRight] at readLeft
  injection readLeft with pairs
  injection pairs with pairs
  obtain ⟨raws, rests⟩ := Prod.mk.inj pairs
  injection raws with names _ values
  obtain ⟨leftName, leftValue⟩ := left
  obtain ⟨rightName, rightValue⟩ := right
  cases names
  cases Reference.escapeValue_injective values
  exact ⟨rfl, rests.symm⟩

theorem flatMap_written_append_inj
    {left right : List Attribute} {leftRest rightRest : Text}
    (readableLeft : ∀ attr ∈ left, Readable attr.name)
    (readableRight : ∀ attr ∈ right, Readable attr.name)
    (leftEnds : leftRest.head? ≠ some ' ') (rightEnds : rightRest.head? ≠ some ' ')
    (same : left.flatMap Attribute.written ++ leftRest =
      right.flatMap Attribute.written ++ rightRest) :
    left = right ∧ leftRest = rightRest := by
  induction left generalizing right with
  | nil =>
      cases right with
      | nil => exact ⟨rfl, same⟩
      | cons other right =>
          refine absurd ?_ leftEnds
          rw [show leftRest = _ from same]
          rfl
  | cons attr left induction =>
      cases right with
      | nil =>
          refine absurd ?_ rightEnds
          rw [show rightRest = _ from same.symm]
          rfl
      | cons other right =>
          obtain ⟨readableAttr, readableLater⟩ := List.forall_mem_cons.mp readableLeft
          obtain ⟨readableOther, readableOthers⟩ := List.forall_mem_cons.mp readableRight
          rw [List.flatMap_cons, List.flatMap_cons, List.append_assoc, List.append_assoc] at same
          obtain ⟨rfl, later⟩ := written_append_inj readableAttr readableOther same
          obtain ⟨rfl, rests⟩ := induction readableLater readableOthers later
          exact ⟨rfl, rests⟩

/-- A written start tag is read back, and then whatever was put after its attributes. -/
theorem element_written_append
    {name extra : Text} {attributes : List Attribute}
    (noSpace : ∀ character ∈ name, isSpace character = false) (sound : Sound attributes)
    (spaced : attributes.flatMap Attribute.written ++ extra = [] ∨
      ∃ others, attributes.flatMap Attribute.written ++ extra = ' ' :: others) :
    ∃ inside before, element (name ++ (attributes.flatMap Attribute.written ++ extra)) =
      (attributesFrom inside before extra).map fun later =>
        ⟨name, attributes ++ later, .empty⟩ := by
  have plain : ∀ character ∈ name, (!isSpace character) = true := by
    intro character member
    rw [noSpace character member]
    rfl
  have named : elementName (name ++ (attributes.flatMap Attribute.written ++ extra)) = name := by
    rw [elementName, List.takeWhile_append_of_pos plain]
    rcases spaced with nothing | ⟨others, spaced⟩
    · rw [nothing]
      exact List.append_nil name
    · rw [spaced]
      exact List.append_nil name
  have left : (name ++ (attributes.flatMap Attribute.written ++ extra)).dropWhile
      (fun character => !isSpace character) =
        attributes.flatMap Attribute.written ++ extra := by
    rw [List.dropWhile_append_of_pos plain]
    rcases spaced with nothing | ⟨others, spaced⟩
    · rw [nothing]
      rfl
    · rw [spaced]
      rfl
  obtain ⟨before, read⟩ := attributesFrom_written_append sound.readable
    (fun _ _ _ member => absurd member List.not_mem_nil) sound.distinct
    (name ++ (attributes.flatMap Attribute.written ++ extra)) extra
  refine ⟨name ++ (attributes.flatMap Attribute.written ++ extra), before, ?_⟩
  rw [element, Tag.attributes, left, named, read]
  cases attributesFrom _ before extra <;> rfl

theorem element_written
    {name : Text} {attributes : List Attribute}
    (noSpace : ∀ character ∈ name, isSpace character = false) (sound : Sound attributes) :
    element (name ++ attributes.flatMap Attribute.written) =
      .ok ⟨name, attributes, .empty⟩ := by
  have spaced : attributes.flatMap Attribute.written ++ [] = [] ∨
      ∃ others, attributes.flatMap Attribute.written ++ [] = ' ' :: others := by
    cases attributes with
    | nil => exact Or.inl rfl
    | cons attr attributes => exact Or.inr ⟨_, rfl⟩
  obtain ⟨inside, before, read⟩ := element_written_append noSpace sound spaced
  rw [List.append_nil] at read
  rw [read, attributesFrom_of_end rfl, Except.map, List.append_nil]

end Tag

theorem Content.written_element
    (name : Text) (attributes : List Attribute) (inner after : Content) :
    (Content.element name attributes inner after).written =
      (Element.mk name attributes inner).written ++ after.written := by
  cases inner <;> simp [Element.written, written]

theorem Element.tagOpening_prefix (element : Element) :
    Element.tagOpening element.name element.attributes <+: element.written := by
  obtain ⟨name, attributes, content⟩ := element
  cases content <;>
    · simp only [Element.written, Content.written, List.append_assoc]
      exact List.prefix_append _ _

theorem Element.content_infix (element : Element) :
    element.content.written <:+: element.written := by
  obtain ⟨name, attributes, content⟩ := element
  cases content with
  | empty => exact List.nil_infix
  | text | element =>
      refine ⟨Element.tagOpening name attributes ++ ['>'], '<' :: '/' :: name ++ ['>'], ?_⟩
      simp [Element.written, Content.written]

theorem Content.written_infix
    {content : Content} {child : Element} (member : child ∈ content.elements) :
    child.written <:+: content.written := by
  induction content with
  | empty => cases member
  | text characters after induction =>
      exact (induction member).trans (List.suffix_append _ _).isInfix
  | element name attributes inner after _ induction =>
      rw [written_element]
      rcases List.mem_cons.mp member with rfl | member
      · exact (List.prefix_append _ _).isInfix
      · exact (induction member).trans (List.suffix_append _ _).isInfix

theorem Attribute.name_infix
    {element : Element} {attr : Attribute} (member : attr ∈ element.attributes) :
    ' ' :: attr.name ++ ['=', '"'] <:+: element.written := by
  obtain ⟨left, right, split⟩ := List.append_of_mem member
  have begins : ' ' :: attr.name ++ ['=', '"'] <+: attr.written := by
    refine ⟨Reference.escapeValue attr.value ++ ['"'], ?_⟩
    simp [Attribute.written]
  have inside : attr.written <:+: Element.tagOpening element.name element.attributes := by
    refine ⟨'<' :: element.name ++ left.flatMap Attribute.written,
      right.flatMap Attribute.written, ?_⟩
    simp [Element.tagOpening, split]
  exact (begins.isInfix.trans inside).trans element.tagOpening_prefix.isInfix

namespace Reader

/-- The inside of a tag that opens an element. -/
structure OpensElement (inside : Text) : Prop where
  begins : ∃ first others, inside = first :: others ∧ first ∉ ['!', '/', '?']
  followed : follow none inside = some none

theorem readMarkup_of_letter
    {first : Char} (letter : first ∉ ['!', '/', '?']) (opened : List Text) (ahead : Text) :
    readMarkup opened (first :: ahead) = readStartTag opened (first :: ahead) := by
  have plain : ∀ sign ∈ ['!', '/', '?'], ∀ rest, first :: ahead ≠ sign :: rest := by
    intro sign member rest same
    rw [(List.cons.inj same).1] at letter
    exact letter member
  rw [readMarkup]
  · exact plain '!' (by decide)
  · exact plain '/' (by decide)
  · exact plain '?' (by decide)
  · exact List.cons_ne_nil _ _

theorem readMarkup_of_opensElement
    {inside : Text} (opens : OpensElement inside) (opened : List Text) (ahead : Text) :
    readMarkup opened (inside ++ ahead) = readStartTag opened (inside ++ ahead) := by
  obtain ⟨first, others, rfl, letter⟩ := opens.begins
  exact readMarkup_of_letter letter opened (others ++ ahead)

theorem close_tagRest
    {inside : Text} (followed : follow none inside = some none) (ahead : Text) :
    close tagRest .unclosedTag (inside ++ '>' :: ahead) =
      .ok ⟨inside, inside ++ ['>'], ahead⟩ := by
  have read : tagRest.read (inside ++ '>' :: ahead) =
      some ⟨inside, inside ++ ['>'], ahead⟩ :=
    tagRest_read_eq_some_iff.mpr ⟨inside, ahead, rfl, followed, rfl⟩
  rw [close, read]

theorem next?_startTag
    {inside : Text} (opens : OpensElement inside) (noSlash : inside.getLast? ≠ some '/')
    (opened : List Text) (ahead : Text) :
    next? ⟨'<' :: inside ++ '>' :: ahead, opened⟩ =
      .ok (some (.startTag inside, ⟨ahead, Tag.elementName inside :: opened⟩)) := by
  have read : readMarkup opened (inside ++ '>' :: ahead) =
      .ok (.startTag inside, ⟨ahead, Tag.elementName inside :: opened⟩) := by
    rw [readMarkup_of_opensElement opens, readStartTag, close_tagRest opens.followed]
    exact if_neg noSlash
  exact bind_eq_ok_iff.mpr ⟨_, read, rfl⟩

theorem next?_emptyTag
    {inside : Text} (opens : OpensElement inside) (opened : List Text) (ahead : Text) :
    next? ⟨'<' :: inside ++ '/' :: '>' :: ahead, opened⟩ =
      .ok (some (.emptyTag inside, ⟨ahead, opened⟩)) := by
  have followed : follow none (inside ++ ['/']) = some none := by
    rw [follow_append, opens.followed]
    rfl
  have read : readMarkup opened (inside ++ '/' :: '>' :: ahead) =
      .ok (.emptyTag inside, ⟨ahead, opened⟩) := by
    rw [readMarkup_of_opensElement opens, readStartTag,
      List.append_cons inside, close_tagRest followed]
    refine (if_pos List.getLast?_concat).trans ?_
    rw [List.dropLast_concat]
  exact bind_eq_ok_iff.mpr ⟨_, read, rfl⟩

theorem next?_text
    {written ahead : Text} (nonempty : written ≠ []) (plain : ∀ letter ∈ written, letter ≠ '<')
    (ends : ahead = [] ∨ ∃ markup, ahead = '<' :: markup) (opened : List Text) :
    next? ⟨written ++ ahead, opened⟩ = .ok (some (.text written, ⟨ahead, opened⟩)) := by
  obtain ⟨first, others, rfl⟩ := List.exists_cons_of_ne_nil nonempty
  obtain ⟨noBracket, plainOthers⟩ := List.forall_mem_cons.mp plain
  have goesOn : ∀ letter ∈ others, (letter != '<') = true := fun letter member =>
    bne_iff_ne.mpr (plainOthers letter member)
  have stops : ahead.takeWhile (· != '<') = [] ∧ ahead.dropWhile (· != '<') = ahead := by
    rcases ends with rfl | ⟨markup, rfl⟩
    · exact ⟨rfl, rfl⟩
    · exact ⟨rfl, rfl⟩
  have taken : (others ++ ahead).takeWhile (· != '<') = others := by
    rw [List.takeWhile_append_of_pos goesOn, stops.1, List.append_nil]
  have left : (others ++ ahead).dropWhile (· != '<') = ahead := by
    rw [List.dropWhile_append_of_pos goesOn, stops.2]
  rw [List.cons_append, next?]
  simp only [taken, left]

end Reader

end CleanSvg
