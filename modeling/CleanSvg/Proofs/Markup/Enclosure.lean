import CleanSvg.Proofs.Markup.Comments

/-!
# What a tag encloses

A start tag encloses what stands between it and the end tag that closes it, where every
other tag in between is closed too.  Markup of this form is described here apart from any
reader.  What a builder holds is such markup, cut off after the last event: each element
stands directly inside the innermost start tag that is not closed.
-/

namespace CleanSvg

/-- What stands between the brackets of a tag that opens an element: it begins as no other
markup does, its quotes are closed, and a closing bracket in it stands in quotes. -/
structure Tag.Inside (inside : Text) : Prop where
  begins : ∀ sign ∈ ['!', '/', '?'], inside.head? ≠ some sign
  followed : Reader.follow none inside = some none

/-- Markup that is one event. -/
inductive Event.MarkedBy : Event → Text → Prop
  | startTag {inside : Text} (tag : Tag.Inside inside) (noSlash : inside.getLast? ≠ some '/') :
      MarkedBy (.startTag inside) ('<' :: inside ++ ['>'])
  | emptyTag {inside : Text} (tag : Tag.Inside (inside ++ ['/'])) :
      MarkedBy (.emptyTag inside) ('<' :: inside ++ ['/', '>'])
  | endTag {inside : Text} (followed : Reader.follow none inside = some none) :
      MarkedBy (.endTag (Reader.endTagName inside)) ('<' :: '/' :: inside ++ ['>'])
  | text {written : Text} (nonempty : written ≠ []) (plain : ∀ letter ∈ written, letter ≠ '<') :
      MarkedBy (.text written) written
  | characterData {characters : Text} (notClosed : ¬ "]]>".toList <:+: characters) :
      MarkedBy (.characterData characters) ("<![CDATA[".toList ++ characters ++ "]]>".toList)
  | comment {body : Text} (notClosed : ¬ "-->".toList <:+: body) :
      MarkedBy .passedOver (commentMarkup body)
  | instruction {inside : Text} (notClosed : ¬ "?>".toList <:+: '?' :: inside) :
      MarkedBy .passedOver ('<' :: '?' :: inside ++ "?>".toList)
  | doctype {inside name : Text} (keyword : Text.afterKeyword? "doctype" inside = some name)
      (named : name.all Tag.isSpace = false)
      (followed : inside.foldlM Reader.bracketStep 0 = some 0) :
      MarkedBy .passedOver ('<' :: '!' :: inside ++ ['>'])

/-- What an event does to the names of the open elements, the innermost first. -/
def Event.Turns : Event → List Text → List Text → Prop
  | .startTag inside, before, after => after = Tag.elementName inside :: before
  | .endTag name, before, after => before = name :: after
  | _, before, after => after = before

namespace Reader

variable {opened : List Text} {ahead : Text} {event : Event} {reader after : Reader}

theorem readMarkup_turns (read : readMarkup opened ahead = .ok (event, after)) :
    event.Turns opened after.opened := by
  unfold readMarkup at read
  split at read
  · obtain ⟨⟨inner, rest⟩, found, same⟩ := bind_eq_ok_iff.mp read
    cases same
    rcases readBang_event found with ⟨characters, rfl⟩ | rfl
    · rfl
    · rfl
  · obtain ⟨_, _, outer, _, _, named, rfl, rfl⟩ := readEndTag_eq_ok read
    exact named
  · obtain ⟨piece, _, same⟩ := bind_eq_ok_iff.mp read
    cases same
    rfl
  · cases read
  · obtain ⟨inside, rest, _, _, ⟨_, rfl, rfl⟩ | ⟨_, rfl, rfl⟩⟩ := readStartTag_eq_ok read
    · rfl
    · rfl

/-- A reader opens an element at a start tag and closes the innermost one at an end tag of its
name, and it does neither at any other event. -/
theorem next?_turns (read : reader.next? = .ok (some (event, after))) :
    event.Turns reader.opened after.opened := by
  unfold next? at read
  split at read
  · cases read
  · obtain ⟨⟨inner, rest⟩, found, same⟩ := bind_eq_ok_iff.mp read
    cases same
    exact readMarkup_turns found
  · cases read
    rfl

theorem readStartTag_markedBy
    (read : readStartTag opened ahead = .ok (event, after))
    (begins : ∀ sign ∈ ['!', '/', '?'], ahead.head? ≠ some sign) :
    ∃ markup, event.MarkedBy markup ∧ '<' :: ahead = markup ++ after.ahead := by
  obtain ⟨inside, rest, rfl, followed, shape⟩ := readStartTag_eq_ok read
  have tag : Tag.Inside inside := by
    refine ⟨?_, followed⟩
    intro sign member first
    apply begins sign member
    rw [List.head?_append, first]
    rfl
  rcases shape with ⟨slash, rfl, rfl⟩ | ⟨noSlash, rfl, rfl⟩
  · obtain ⟨front, rfl⟩ := List.getLast?_eq_some_iff.mp slash
    rw [List.dropLast_concat]
    exact ⟨_, .emptyTag tag, by simp⟩
  · exact ⟨_, .startTag tag noSlash, by simp⟩

theorem close_through
    {signs : Text} {unclosed : ReadError} {piece : Piece Text} (nonempty : signs ≠ [])
    (read : close (through signs) unclosed ahead = .ok piece) :
    ahead = piece.value ++ (signs ++ piece.ahead) ∧ ¬ signs <:+: piece.value := by
  unfold close at read
  split at read
  · rename_i found
    cases read
    exact Pattern.read_through_literal nonempty found
  · cases read

theorem bracketStep_eq_none_iff {depth : Nat} {character : Char} :
    bracketStep depth character = none ↔ depth = 0 ∧ character = '>' := by
  unfold bracketStep
  split
  · rename_i opens
    simp [opens]
  · split
    · rename_i closes
      simp [closes]
    · rename_i other
      simp [other]

theorem close_doctypeRest
    {unclosed : ReadError} {piece : Piece Text}
    (read : close doctypeRest unclosed ahead = .ok piece) :
    ahead = piece.value ++ '>' :: piece.ahead ∧ piece.value.foldlM bracketStep 0 = some 0 := by
  unfold close at read
  split at read
  · rename_i found
    cases read
    obtain ⟨last, depth, split, followed, stops⟩ := Pattern.read_scan found
    obtain ⟨rfl, rfl⟩ := bracketStep_eq_none_iff.mp stops
    exact ⟨split, followed⟩
  · cases read

theorem characterData_markedBy
    {piece : Piece Text} (read : characterData ahead = .ok piece) :
    ∃ markup, (Event.characterData piece.value).MarkedBy markup ∧
      '<' :: '!' :: '[' :: ahead = markup ++ piece.ahead := by
  unfold characterData at read
  split at read
  · rename_i rest found
    obtain ⟨rfl, notClosed⟩ := close_through (by decide) read
    rw [Text.after?_eq_some_iff.mp found]
    exact ⟨_, .characterData notClosed, by simp⟩
  · cases read

theorem comment_markedBy
    {piece : Piece Text} (read : comment ahead = .ok piece) :
    ∃ markup, Event.passedOver.MarkedBy markup ∧
      '<' :: '!' :: '-' :: ahead = markup ++ piece.ahead := by
  unfold comment at read
  split at read
  · obtain ⟨rfl, notClosed⟩ := close_through (by decide) read
    exact ⟨_, .comment notClosed, by simp [commentMarkup]⟩
  · cases read

theorem doctype_markedBy
    {piece : Piece Text} (read : doctype ahead = .ok piece) :
    ∃ markup, Event.passedOver.MarkedBy markup ∧ '<' :: '!' :: ahead = markup ++ piece.ahead := by
  obtain ⟨found, closed, checked⟩ := bind_eq_ok_iff.mp read
  obtain ⟨rfl, followed⟩ := close_doctypeRest closed
  split at checked
  · cases checked
  · rename_i name keyword
    split at checked
    · cases checked
    · rename_i named
      cases checked
      exact ⟨_, .doctype keyword (Bool.eq_false_iff.mpr named) followed, by simp⟩

theorem instruction_markedBy
    {piece : Piece Text} (read : instruction ('?' :: ahead) = .ok piece) :
    ∃ markup, Event.passedOver.MarkedBy markup ∧ '<' :: '?' :: ahead = markup ++ piece.ahead := by
  obtain ⟨found, closed, checked⟩ := bind_eq_ok_iff.mp read
  obtain ⟨split, notClosed⟩ := close_through (by decide) closed
  split at checked
  · cases checked
  · rename_i filled
    cases checked
    obtain ⟨first, inside, value⟩ :=
      List.exists_cons_of_ne_nil fun vacant => filled (List.isEmpty_iff.mpr vacant)
    rw [value] at split notClosed
    obtain ⟨rfl, rfl⟩ := List.cons.inj split
    exact ⟨_, .instruction notClosed, by simp⟩

theorem readBang_markedBy
    {rest : Text} (read : readBang ahead = .ok (event, rest)) :
    ∃ markup, event.MarkedBy markup ∧ '<' :: '!' :: ahead = markup ++ rest := by
  unfold readBang at read
  split at read
  · obtain ⟨piece, found, same⟩ := bind_eq_ok_iff.mp read
    cases same
    exact characterData_markedBy found
  · obtain ⟨piece, found, same⟩ := bind_eq_ok_iff.mp read
    cases same
    exact comment_markedBy found
  · split at read
    · obtain ⟨piece, found, same⟩ := bind_eq_ok_iff.mp read
      cases same
      exact doctype_markedBy found
    · cases read
  · cases read

theorem readMarkup_markedBy (read : readMarkup opened ahead = .ok (event, after)) :
    ∃ markup, event.MarkedBy markup ∧ '<' :: ahead = markup ++ after.ahead := by
  unfold readMarkup at read
  split at read
  · obtain ⟨⟨inner, rest⟩, found, same⟩ := bind_eq_ok_iff.mp read
    cases same
    exact readBang_markedBy found
  · obtain ⟨inside, rest, outer, rfl, followed, _, rfl, rfl⟩ := readEndTag_eq_ok read
    exact ⟨_, .endTag followed, by simp⟩
  · obtain ⟨piece, found, same⟩ := bind_eq_ok_iff.mp read
    cases same
    exact instruction_markedBy found
  · cases read
  · rename_i noBang noSlash noQuestion nonempty
    obtain ⟨first, others, rfl⟩ := List.exists_cons_of_ne_nil nonempty
    apply readStartTag_markedBy read
    rintro sign member same
    cases same
    simp only [List.mem_cons, List.not_mem_nil, or_false] at member
    rcases member with rfl | rfl | rfl
    · exact noBang others rfl
    · exact noSlash others rfl
    · exact noQuestion others rfl

/-- What a reader takes for an event is markup of this event. -/
theorem next?_markedBy (read : reader.next? = .ok (some (event, after))) :
    ∃ markup, event.MarkedBy markup ∧ reader.ahead = markup ++ after.ahead := by
  unfold next? at read
  split at read
  · cases read
  · rename_i ahead begun
    obtain ⟨⟨inner, rest⟩, found, same⟩ := bind_eq_ok_iff.mp read
    cases same
    rw [begun]
    exact readMarkup_markedBy found
  · rename_i first others noBracket begun
    cases read
    have plain := List.forall_mem_cons.mpr ⟨noBracket, Text.ne_of_mem_takeWhile '<' others⟩
    refine ⟨_, .text (List.cons_ne_nil _ _) plain, ?_⟩
    rw [begun, List.cons_append, List.takeWhile_append_dropWhile]

end Reader

mutual

/-- Markup of content: one node after another, and what is passed over among them. -/
inductive Content.Marked : Text → Content → Prop
  | nothing : Content.Marked [] .empty
  | passedOver {markup piece : Text} {content : Content} (before : Content.Marked markup content)
      (passed : Event.passedOver.MarkedBy piece) : Content.Marked (markup ++ piece) content
  | node {markup piece : Text} {content : Content} {node : Node}
      (before : Content.Marked markup content) (marked : Node.Marked piece node) :
      Content.Marked (markup ++ piece) (content ++ Content.cons node .empty)

/-- Markup of one node.  Tags enclose the markup of the content, and they name the element
alike. -/
inductive Node.Marked : Text → Node → Prop
  | text {markup written characters : Text} (run : (Event.text written).MarkedBy markup)
      (reads : Reference.Reads written characters) : Node.Marked markup (.text characters)
  | characterData {markup characters : Text}
      (data : (Event.characterData characters).MarkedBy markup) :
      Node.Marked markup (.text characters)
  | emptyTag {markup inside : Text} {element : Element}
      (tag : (Event.emptyTag inside).MarkedBy markup) (read : Tag.element inside = .ok element) :
      Node.Marked markup (.element element)
  | tags {opening inside between closing : Text} {element : Element} {content : Content}
      (opens : (Event.startTag inside).MarkedBy opening)
      (read : Tag.element inside = .ok element) (encloses : Content.Marked between content)
      (closes : (Event.endTag element.name).MarkedBy closing) :
      Node.Marked (opening ++ between ++ closing) (.element { element with content })

end

/-- Markup that can stand around a root element: texts in it are white space. -/
def Margin (markup : Text) : Prop :=
  ∃ content, Content.Marked markup content ∧
    ∀ node ∈ content.nodes, ∃ characters, node = .text characters ∧ Text.allBlank characters

namespace Margin

variable {markup piece characters : Text}

theorem nothing : Margin [] :=
  ⟨.empty, .nothing, nofun⟩

theorem passedOver (margin : Margin markup) (passed : Event.passedOver.MarkedBy piece) :
    Margin (markup ++ piece) := by
  obtain ⟨content, marked, blank⟩ := margin
  exact ⟨content, .passedOver marked passed, blank⟩

theorem text
    (margin : Margin markup) (marked : Node.Marked piece (.text characters))
    (blank : Text.allBlank characters) : Margin (markup ++ piece) := by
  obtain ⟨content, before, blanks⟩ := margin
  refine ⟨_, .node before marked, ?_⟩
  intro node member
  rw [Content.nodes_append, List.mem_append] at member
  rcases member with earlier | last
  · exact blanks node earlier
  · rw [Content.nodes_cons] at last
    exact ⟨characters, List.mem_singleton.mp last, blank⟩

end Margin

theorem Content.reverse_cons (node : Node) (behind : Content) :
    (cons node behind).reverse = behind.reverse ++ cons node .empty := by
  rw [← ofNodes_nodes (cons node behind).reverse, ← ofNodes_nodes (behind.reverse ++ _)]
  simp [nodes]

namespace Builder

/-- The markup of what is built: before the root element, inside the elements that are open, or
after the root. -/
inductive Marked : Builder → Text → Prop
  | before {margin : Text} (blank : Margin margin) : Marked ⟨[], none⟩ margin
  | inside {front opening inside between : Text} {outer : List OpenElement} {element : Element}
      {behind : Content} (outside : Marked ⟨outer, none⟩ front)
      (opens : (Event.startTag inside).MarkedBy opening)
      (read : Tag.element inside = .ok element)
      (encloses : Content.Marked between behind.reverse) :
      Marked ⟨⟨element.name, element.attributes, behind⟩ :: outer, none⟩
        (front ++ (opening ++ between))
  | after {first markup last : Text} {root : Element} (blankFirst : Margin first)
      (marked : Node.Marked markup (.element root)) (blankLast : Margin last) :
      Marked ⟨[], some root⟩ (first ++ markup ++ last)

variable {builder next : Builder} {read markup : Text} {event : Event}

theorem Marked.push
    {parent : OpenElement} {outer : List OpenElement} {root : Option Element} {node : Node}
    (built : Marked ⟨parent :: outer, root⟩ read) (marked : Node.Marked markup node) :
    Marked ⟨parent.push node :: outer, root⟩ (read ++ markup) := by
  cases built with
  | @inside front opening inside between _ element behind outside opens tag encloses =>
      have enclosed : Content.Marked (between ++ markup) (Content.cons node behind).reverse := by
        rw [Content.reverse_cons]
        exact .node encloses marked
      have pushed := Marked.inside outside opens tag enclosed
      rwa [← List.append_assoc opening, ← List.append_assoc] at pushed

theorem Marked.attach
    {element : Element} (built : builder.Marked read)
    (marked : Node.Marked markup (.element element))
    (attached : builder.attach element = .ok next) : next.Marked (read ++ markup) := by
  obtain ⟨_ | ⟨parent, outer⟩, root⟩ := builder
  · cases built with
    | before blank =>
        cases attached
        have complete := Marked.after blank marked .nothing
        rwa [List.append_nil] at complete
    | after => cases attached
  · cases attached
    exact built.push marked

theorem Marked.attachText
    {characters : Text} (built : builder.Marked read)
    (marked : Node.Marked markup (.text characters))
    (attached : builder.attachText characters = .ok next) : next.Marked (read ++ markup) := by
  obtain ⟨_ | ⟨parent, outer⟩, root⟩ := builder
  · simp only [Builder.attachText] at attached
    split at attached
    · rename_i blank
      cases attached
      cases built with
      | before margin => exact .before (margin.text marked blank)
      | after first whole last =>
          rw [List.append_assoc]
          exact .after first whole (last.text marked blank)
    · cases attached
  · cases attached
    exact built.push marked

theorem Marked.openElement
    {inside : Text} (built : builder.Marked read) (tag : (Event.startTag inside).MarkedBy markup)
    (opens : builder.openElement inside = .ok next) : next.Marked (read ++ markup) := by
  unfold Builder.openElement at opens
  split at opens
  · cases opens
  · rename_i free
    obtain ⟨element, found, same⟩ := bind_eq_ok_iff.mp opens
    cases same
    obtain ⟨opened, root⟩ := builder
    obtain rfl : root = none := by
      cases built with
      | before | inside => rfl
      | after => exact absurd ⟨rfl, rfl⟩ free
    have begun : Content.Marked [] Content.empty.reverse := .nothing
    have opened := Marked.inside built tag found begun
    rwa [List.append_nil] at opened

theorem Marked.closeElement
    {name : Text} {names : List Text} (built : builder.Marked read)
    (tag : (Event.endTag name).MarkedBy markup)
    (named : builder.opened.map OpenElement.name = name :: names)
    (closes : builder.closeElement = .ok next) : next.Marked (read ++ markup) := by
  cases built with
  | before => cases closes
  | after => cases closes
  | @inside front opening inside between outer element behind outside opens found encloses =>
      cases named
      have closed := outside.attach (.tags opens found encloses tag) closes
      rwa [← List.append_assoc front] at closed

theorem Marked.passedOver
    (built : builder.Marked read) (passed : Event.passedOver.MarkedBy markup) :
    builder.Marked (read ++ markup) := by
  cases built with
  | before blank => exact .before (blank.passedOver passed)
  | inside outside opens tag encloses =>
      have enclosed := Marked.inside outside opens tag (.passedOver encloses passed)
      rwa [← List.append_assoc _ _ markup, ← List.append_assoc] at enclosed
  | after first whole last =>
      rw [List.append_assoc]
      exact .after first whole (last.passedOver passed)

/-- Taking one event in adds the markup of the event to the markup of what was built.  An end
tag has to name the innermost open element. -/
theorem Marked.step
    {names : List Text} (built : builder.Marked read) (taken : event.MarkedBy markup)
    (turns : event.Turns (builder.opened.map OpenElement.name) names)
    (stepped : builder.step event = .ok next) : next.Marked (read ++ markup) := by
  cases event with
  | startTag inside => exact built.openElement taken stepped
  | emptyTag inside =>
      obtain ⟨element, found, attached⟩ := bind_eq_ok_iff.mp stepped
      exact built.attach (.emptyTag taken found) attached
  | endTag name => exact built.closeElement taken turns stepped
  | text written =>
      obtain ⟨characters, reads, attached⟩ := step_text_eq_ok_iff.mp stepped
      exact built.attachText (.text taken reads) attached
  | characterData characters => exact built.attachText (.characterData taken) stepped
  | passedOver =>
      cases stepped
      exact built.passedOver taken

end Builder

end CleanSvg
