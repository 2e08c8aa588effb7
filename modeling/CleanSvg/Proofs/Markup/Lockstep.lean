import CleanSvg.Proofs.Markup.Enclosure
import CleanSvg.Proofs.Markup.TagBytes

/-!
# Two stacks in lockstep

A reader remembers the names of the elements it has opened, and a builder keeps these
elements.  Both stacks grow and shrink by the same events, so they agree at every event of
every text.  Hence no end tag can fail to find its element, and what the builder holds is
what the tags that were read enclose.
-/

namespace CleanSvg

/-- A reader meets nothing only at the end of the text. -/
theorem Reader.next?_end {reader : Reader} (read : reader.next? = .ok none) :
    reader.ahead = [] := by
  unfold next? at read
  split at read
  · assumption
  · obtain ⟨_, _, same⟩ := bind_eq_ok_iff.mp read
    cases same
  · cases read

namespace Builder

/-- A builder and a reader that the parsing of a text comes to. -/
inductive Reached (text : Text) : Builder → Reader → Prop
  | start : Reached text Builder.start (Reader.ofText text)
  | step {builder next : Builder} {reader after : Reader} {event : Event}
      (reached : Reached text builder reader)
      (read : reader.next? = .ok (some (event, after)))
      (stepped : builder.step event = .ok next) : Reached text next after

/-- Inside two start tags, two elements are open. -/
example : Reached "<a><b>" ⟨[⟨"b", [], .empty⟩, ⟨"a", [], .empty⟩], none⟩ ⟨[], ["b", "a"]⟩ := by
  have first : (Reader.ofText "<a><b>").next? =
      .ok (some (.startTag "a", ⟨"<b>", ["a"]⟩)) := by
    decide +kernel
  have second : Reader.next? ⟨"<b>", ["a"]⟩ =
      .ok (some (.startTag "b", ⟨[], ["b", "a"]⟩)) := by
    decide +kernel
  have outer : Builder.start.step (.startTag "a") = .ok ⟨[⟨"a", [], .empty⟩], none⟩ := by
    decide +kernel
  have inner : Builder.step ⟨[⟨"a", [], .empty⟩], none⟩ (.startTag "b") =
      .ok ⟨[⟨"b", [], .empty⟩, ⟨"a", [], .empty⟩], none⟩ := by
    decide +kernel
  exact (Reached.start.step first outer).step second inner

/-- A builder holds what a reader has read of a text, and both have the same elements open. -/
structure Lockstep (text : Text) (builder : Builder) (reader : Reader) : Prop where
  names : builder.opened.map OpenElement.name = reader.opened
  marked : ∃ read, (Reader.ofText text).ahead = read ++ reader.ahead ∧ builder.Marked read

/-- How parsing ends: at markup that cannot be read, at an event that cannot be taken in, or at
the end of the text. -/
inductive Ends (result : Except ParseError Element) (builder : Builder) (reader : Reader) : Prop
  | reading {cause : ReadError} (read : reader.next? = .error cause)
      (same : result = .error (.malformedMarkup cause))
  | building {event : Event} {after : Reader} {cause : ParseError}
      (read : reader.next? = .ok (some (event, after)))
      (stepped : builder.step event = .error cause) (same : result = .error cause)
  | ending (read : reader.next? = .ok none) (same : result = builder.finish)

variable {text : Text} {builder next : Builder} {reader after : Reader} {event : Event}

theorem attach_names
    {element : Element} (attached : builder.attach element = .ok next) :
    next.opened.map OpenElement.name = builder.opened.map OpenElement.name := by
  obtain ⟨_ | ⟨parent, outer⟩, root⟩ := builder
  · cases root with
    | none =>
        cases attached
        rfl
    | some root => cases attached
  · cases attached
    rfl

theorem attachText_names
    {characters : Text} (attached : builder.attachText characters = .ok next) :
    next.opened.map OpenElement.name = builder.opened.map OpenElement.name := by
  unfold attachText at attached
  split at attached
  · rename_i parent outer opened
    cases attached
    rw [opened]
    rfl
  · split at attached
    · cases attached
      rfl
    · cases attached

theorem openElement_names
    {inside : Text} (opens : builder.openElement inside = .ok next) :
    next.opened.map OpenElement.name =
      Tag.elementName inside :: builder.opened.map OpenElement.name := by
  unfold openElement at opens
  split at opens
  · cases opens
  · obtain ⟨element, read, same⟩ := bind_eq_ok_iff.mp opens
    obtain ⟨attributes, _, made⟩ := bind_eq_ok_iff.mp read
    cases same
    cases made
    rfl

/-- The builder does to the names of its open elements what the reader does to its own. -/
theorem step_names
    {names : List Text} (turns : event.Turns (builder.opened.map OpenElement.name) names)
    (stepped : builder.step event = .ok next) : next.opened.map OpenElement.name = names := by
  cases event with
  | startTag inside => exact (openElement_names stepped).trans turns.symm
  | emptyTag inside =>
      obtain ⟨element, _, attached⟩ := bind_eq_ok_iff.mp stepped
      exact (attach_names attached).trans turns.symm
  | endTag name =>
      obtain ⟨_ | ⟨innermost, outer⟩, root⟩ := builder
      · cases stepped
      · cases turns
        exact attach_names stepped
  | text written =>
      obtain ⟨characters, _, attached⟩ := bind_eq_ok_iff.mp stepped
      exact (attachText_names attached).trans turns.symm
  | characterData characters => exact (attachText_names stepped).trans turns.symm
  | passedOver =>
      cases stepped
      exact turns.symm

theorem Lockstep.start (text : Text) : Lockstep text Builder.start (Reader.ofText text) := by
  refine ⟨?_, [], rfl, .before .nothing⟩
  unfold Reader.ofText
  split <;> rfl

theorem Lockstep.step
    (lockstep : Lockstep text builder reader)
    (read : reader.next? = .ok (some (event, after)))
    (stepped : builder.step event = .ok next) : Lockstep text next after := by
  obtain ⟨begun, split, built⟩ := lockstep.marked
  obtain ⟨markup, marked, taken⟩ := Reader.next?_markedBy read
  have turns := Reader.next?_turns read
  rw [← lockstep.names] at turns
  refine ⟨step_names turns stepped, begun ++ markup, ?_, built.step marked turns stepped⟩
  rw [split, taken, List.append_assoc]

theorem Reached.lockstep (reached : Reached text builder reader) :
    Lockstep text builder reader := by
  induction reached with
  | start => exact .start text
  | step _ read stepped lockstep => exact lockstep.step read stepped

theorem Reached.parse_eq (reached : Reached text builder reader) :
    Element.parse text = builder.run reader := by
  induction reached with
  | start => rfl
  | step _ read stepped same => rw [same, run_of_step read stepped]

theorem Reached.exists_ends (reached : Reached text builder reader) :
    ∃ last place, Reached text last place ∧ Ends (builder.run reader) last place := by
  induction builder, reader using Builder.run.induct with
  | case1 builder reader cause read =>
      exact ⟨builder, reader, reached, .reading read (run_of_error read)⟩
  | case2 builder reader read =>
      exact ⟨builder, reader, reached, .ending read (run_of_end read)⟩
  | case3 builder reader event after read induction =>
      cases stepped : builder.step event with
      | error cause =>
          have refused : builder.run reader = .error cause := by
            rw [run_of_event read, stepped]
            rfl
          exact ⟨builder, reader, reached, .building read stepped refused⟩
      | ok next =>
          rw [run_of_step read stepped]
          exact induction next (reached.step read stepped)

theorem exists_ends_parse (text : Text) :
    ∃ last place, Reached text last place ∧ Ends (Element.parse text) last place :=
  Reached.start.exists_ends

theorem Marked.rootless
    {innermost : OpenElement} {outer : List OpenElement} {complete : Option Element} {read : Text}
    (built : Marked ⟨innermost :: outer, complete⟩ read) : complete = none := by
  cases built
  rfl

/-- An end tag always finds the element that it closes, and a place for it. -/
theorem Lockstep.endTag
    {name : Text} (lockstep : Lockstep text builder reader)
    (read : reader.next? = .ok (some (.endTag name, after))) :
    ∃ next, builder.step (.endTag name) = .ok next := by
  have named : reader.opened = name :: after.opened := Reader.next?_turns read
  obtain ⟨_, _, built⟩ := lockstep.marked
  obtain ⟨_ | ⟨innermost, outer⟩, complete⟩ := builder
  · cases lockstep.names.trans named
  · obtain rfl := built.rootless
    cases outer with
    | nil => exact ⟨_, rfl⟩
    | cons parent outer => exact ⟨_, rfl⟩

end Builder

/-- A refusal for what is open when a tag is met, not for what is written in it. -/
def ParseError.OfStack : ParseError → Prop
  | .unexpectedEnd | .multipleRoots => True
  | _ => False

theorem Reference.unescape_not_ofStack
    {written : Text} {cause : ParseError}
    (refused : (unescape written).mapError .malformedReference = .error cause) :
    ¬ cause.OfStack := by
  cases read : unescape written with
  | error malformed =>
      rw [read] at refused
      cases refused
      exact id
  | ok characters =>
      rw [read] at refused
      cases refused

namespace Tag

theorem attributesFrom_not_ofStack
    {inside ahead : Text} {earlier : List RawAttribute} {cause : ParseError}
    (refused : attributesFrom inside earlier ahead = .error cause) : ¬ cause.OfStack := by
  induction earlier, ahead using attributesFrom.induct inside with
  | case1 earlier ahead malformed next =>
      rw [attributesFrom_of_error next] at refused
      cases refused
      exact id
  | case2 earlier ahead next =>
      rw [attributesFrom_of_end next] at refused
      cases refused
  | case3 earlier ahead raw rest next twice =>
      rw [attributesFrom_of_next next, if_pos twice] at refused
      cases refused
      exact id
  | case4 earlier ahead raw rest next fresh induction =>
      rw [attributesFrom_of_next next, if_neg fresh] at refused
      rcases bind_eq_error_iff.mp refused with malformed | ⟨value, _, refused⟩
      · exact Reference.unescape_not_ofStack malformed
      · rcases bind_eq_error_iff.mp refused with later | ⟨others, _, same⟩
        · exact induction later
        · cases same

theorem element_not_ofStack
    {inside : Text} {cause : ParseError} (refused : element inside = .error cause) :
    ¬ cause.OfStack := by
  rcases bind_eq_error_iff.mp refused with malformed | ⟨read, _, same⟩
  · exact attributesFrom_not_ofStack malformed
  · cases same

end Tag

namespace Builder

variable {text : Text} {builder : Builder} {reader : Reader} {event : Event} {cause : ParseError}

/-- The root is complete, and no element is open that another one could be attached to. -/
def Full (builder : Builder) : Prop :=
  builder.opened = [] ∧ builder.root.isSome = true

theorem attach_error
    {element : Element} (refused : builder.attach element = .error cause) :
    cause = .multipleRoots ∧ builder.Full := by
  obtain ⟨_ | ⟨parent, outer⟩, root⟩ := builder
  · cases root with
    | none => cases refused
    | some root =>
        cases refused
        exact ⟨rfl, rfl, rfl⟩
  · cases refused

theorem openElement_error
    {inside : Text} (refused : builder.openElement inside = .error cause) (stack : cause.OfStack) :
    cause = .multipleRoots ∧ builder.Full := by
  unfold openElement at refused
  split at refused
  · rename_i full
    cases refused
    exact ⟨rfl, List.isEmpty_iff.mp full.1, full.2⟩
  · rcases bind_eq_error_iff.mp refused with malformed | ⟨element, _, same⟩
    · exact absurd stack (Tag.element_not_ofStack malformed)
    · cases same

theorem attachText_error
    {characters : Text} (refused : builder.attachText characters = .error cause) :
    ¬ cause.OfStack := by
  unfold attachText at refused
  split at refused
  · cases refused
  · split at refused
    · cases refused
    · cases refused
      exact id

/-- What is open when an event is met is wrong only at a tag. -/
theorem step_error (refused : builder.step event = .error cause) (stack : cause.OfStack) :
    (∃ name, event = .endTag name) ∨
      (∃ inside, event = .startTag inside ∨ event = .emptyTag inside) ∧
        cause = .multipleRoots ∧ builder.Full := by
  cases event with
  | startTag inside => exact Or.inr ⟨⟨inside, Or.inl rfl⟩, openElement_error refused stack⟩
  | emptyTag inside =>
      refine Or.inr ⟨⟨inside, Or.inr rfl⟩, ?_⟩
      rcases bind_eq_error_iff.mp refused with malformed | ⟨element, _, refused⟩
      · exact absurd stack (Tag.element_not_ofStack malformed)
      · exact attach_error refused
  | endTag name => exact Or.inl ⟨name, rfl⟩
  | text written =>
      rcases bind_eq_error_iff.mp refused with malformed | ⟨characters, _, refused⟩
      · exact absurd stack (Reference.unescape_not_ofStack malformed)
      · exact absurd stack (attachText_error refused)
  | characterData characters => exact absurd stack (attachText_error refused)
  | passedOver => cases refused

theorem finish_eq_ok {root : Element} (finished : builder.finish = .ok root) :
    builder = ⟨[], some root⟩ := by
  obtain ⟨_ | ⟨innermost, outer⟩, complete⟩ := builder
  · cases complete with
    | none => cases finished
    | some complete =>
        cases finished
        rfl
  · cases finished

theorem finish_error (refused : builder.finish = .error cause) : ¬ cause.OfStack := by
  obtain ⟨_ | ⟨innermost, outer⟩, root⟩ := builder
  · cases root with
    | none =>
        cases refused
        exact id
    | some root => cases refused
  · cases refused
    exact id

/-- Where parsing ends for what is open, a second root element begins. -/
theorem Reached.second_root
    (reached : Reached text builder reader) (ends : Ends (.error cause) builder reader)
    (stack : cause.OfStack) :
    ∃ inside after, (reader.next? = .ok (some (.startTag inside, after)) ∨
        reader.next? = .ok (some (.emptyTag inside, after))) ∧
      cause = .multipleRoots ∧ builder.Full := by
  cases ends with
  | reading read same =>
      cases same
      cases stack
  | @building event after _ read refused same =>
      cases same
      rcases step_error refused stack with ⟨name, rfl⟩ | ⟨⟨inside, opens⟩, second⟩
      · obtain ⟨next, stepped⟩ := reached.lockstep.endTag read
        cases stepped.symm.trans refused
      · refine ⟨inside, after, ?_, second⟩
        rcases opens with rfl | rfl
        · exact Or.inl read
        · exact Or.inr read
  | ending read same => exact absurd stack (finish_error same.symm)

end Builder

namespace Element

open Builder

/-- What holds at each place that the parsing of a text comes to, and of its result. -/
structure ParsedInStep (text : Text) : Prop where
  goesOn : ∀ builder reader, Reached text builder reader → parse text = builder.run reader
  count : ∀ builder reader, Reached text builder reader →
    builder.opened.length = reader.opened.length
  names : ∀ builder reader, Reached text builder reader →
    builder.opened.map OpenElement.name = reader.opened
  endTag : ∀ builder reader name after, Reached text builder reader →
    reader.next? = .ok (some (.endTag name, after)) →
    ∃ next, builder.step (.endTag name) = .ok next
  noUnexpectedEnd : parse text ≠ .error .unexpectedEnd
  multipleRoots : parse text = .error .multipleRoots →
    ∃ builder reader inside after, Reached text builder reader ∧
      (reader.next? = .ok (some (.startTag inside, after)) ∨
        reader.next? = .ok (some (.emptyTag inside, after))) ∧ builder.Full
  decoded : TagBytes.parse text = (parse text).mapError .refused
  alwaysUtf8 : TagBytes.parse text ≠ .error .notUtf8
  encloses : ∀ builder reader, Reached text builder reader →
    ∃ read, (Reader.ofText text).ahead = read ++ reader.ahead ∧ builder.Marked read
  root : ∀ root, parse text = .ok root →
    ∃ first markup last, (Reader.ofText text).ahead = first ++ markup ++ last ∧
      Margin first ∧ Node.Marked markup (.element root) ∧ Margin last

/-- The stack of the builder and the stack of the reader agree at every event of every text.
So no end tag is refused by the builder, and each element stands inside the tags that enclose
it.  No part of a tag fails to be decoded. -/
theorem parsedInStep (text : Text) : ParsedInStep text := by
  refine ⟨?goesOn, ?count, ?names, ?endTag, ?noUnexpectedEnd, ?multipleRoots,
    TagBytes.parse_eq text, ?alwaysUtf8, ?encloses, ?root⟩
  case goesOn =>
    intro builder reader reached
    exact reached.parse_eq
  case count =>
    intro builder reader reached
    rw [← reached.lockstep.names, List.length_map]
  case names =>
    intro builder reader reached
    exact reached.lockstep.names
  case endTag =>
    intro builder reader name after reached read
    exact reached.lockstep.endTag read
  case noUnexpectedEnd =>
    intro refused
    obtain ⟨builder, reader, reached, ends⟩ := exists_ends_parse text
    rw [refused] at ends
    obtain ⟨_, _, _, other, _⟩ := reached.second_root ends trivial
    cases other
  case multipleRoots =>
    intro refused
    obtain ⟨builder, reader, reached, ends⟩ := exists_ends_parse text
    rw [refused] at ends
    obtain ⟨inside, after, begins, _, full⟩ := reached.second_root ends trivial
    exact ⟨builder, reader, inside, after, reached, begins, full⟩
  case alwaysUtf8 =>
    rw [TagBytes.parse_eq]
    cases parse text with
    | error cause => nofun
    | ok root => nofun
  case encloses =>
    intro builder reader reached
    exact reached.lockstep.marked
  case root =>
    intro root parsed
    obtain ⟨last, place, reached, ends⟩ := exists_ends_parse text
    rw [parsed] at ends
    obtain ⟨read, split, built⟩ := reached.lockstep.marked
    cases ends with
    | reading _ same => cases same
    | building _ _ same => cases same
    | ending ended same =>
        obtain rfl := finish_eq_ok same.symm
        rw [Reader.next?_end ended, List.append_nil] at split
        cases built with
        | @after first markup last _ blankFirst marked blankLast =>
            exact ⟨first, markup, last, split, blankFirst, marked, blankLast⟩

/-- End tags without their start tags do not get as far as the builder. -/
example : parse "</a>" = .error (.malformedMarkup (.unmatchedEndTag "a")) ∧
    parse "<a><b></a></b>" = .error (.malformedMarkup (.mismatchedEndTag "b" "a")) ∧
    parse "<a/><b>" = .error .multipleRoots := by
  decide +kernel

end Element

end CleanSvg
