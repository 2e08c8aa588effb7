import CleanSvg.Proofs.Markup.StrayNames

/-!
# Reading back takes balance

Reading goes through the balanced tags of a written tree as they were written.
At the first tag that is not balanced it fails or finds a name that stood
nowhere in the tree, and it never takes back what it has found.  So a tree
without such names is read back exactly if all its tags are balanced.
-/

namespace CleanSvg

namespace Builder

variable {builder : Builder} {result : Element} {names : List Text}
  {name : Text} {attributes : List Attribute} {inner : Content}

theorem element_of_step
    {next : Builder} {event : Event} {inside : Text}
    (isTag : event = .startTag inside ∨ event = .emptyTag inside)
    (stepped : builder.step event = .ok next) : ∃ element, Tag.element inside = .ok element := by
  rcases isTag with rfl | rfl
  · rw [step, openElement] at stepped
    split at stepped
    · cases stepped
    · obtain ⟨element, read, _⟩ := bind_eq_ok_iff.mp stepped
      exact ⟨element, read⟩
  · obtain ⟨element, read, _⟩ := bind_eq_ok_iff.mp stepped
    exact ⟨element, read⟩

theorem stray_of_tag
    {rest : Text} (legible : Tag.Legible name attributes)
    (noStray : Tag.NoStray name attributes) (unbalanced : ¬ Tag.Balanced name attributes)
    (ends : Tag.BeginsWithEnd rest)
    (parsed : builder.run ⟨'<' :: Tag.writtenInside name attributes ++ rest, names⟩ =
      .ok result) : ¬ result.EveryTag Tag.NoStray := by
  intro every
  cases read : Reader.next? ⟨'<' :: Tag.writtenInside name attributes ++ rest, names⟩ with
  | error cause =>
      rw [run_of_error read] at parsed
      cases parsed
  | ok found =>
      cases found with
      | none =>
          obtain ⟨_, _, same⟩ := bind_eq_ok_iff.mp read
          cases same
      | some found =>
          obtain ⟨event, after⟩ := found
          rw [run_of_event read] at parsed
          obtain ⟨next, stepped, parsed⟩ := bind_eq_ok_iff.mp parsed
          have built := EveryTag.of_run parsed every
          obtain ⟨inside, isTag, stray⟩ :=
            Reader.next?_of_unbalanced legible noStray unbalanced ends read
          obtain ⟨element, elementRead⟩ := element_of_step isTag stepped
          have sound := ((everyTag_step_iff stepped).mp built).2
          apply stray element elementRead
          rcases isTag with rfl | rfl
          · exact sound element elementRead
          · exact sound element elementRead

theorem stray_of_element
    {ahead : Text} (legible : Tag.Legible name attributes)
    (noStray : Tag.NoStray name attributes) (unbalanced : ¬ Tag.Balanced name attributes)
    (parsed : builder.run ⟨(Element.mk name attributes inner).written ++ ahead, names⟩ =
      .ok result) : ¬ result.EveryTag Tag.NoStray := by
  obtain ⟨rest, split, ends⟩ : ∃ rest, (Element.mk name attributes inner).written ++ ahead =
      '<' :: Tag.writtenInside name attributes ++ rest ∧ Tag.BeginsWithEnd rest := by
    by_cases vacant : inner = .empty
    · subst vacant
      exact ⟨_, Element.written_empty_append name attributes ahead, Or.inr ⟨ahead, rfl⟩⟩
    · exact ⟨_, Element.written_append_of_ne name attributes vacant ahead, Or.inl ⟨_, rfl⟩⟩
  rw [split] at parsed
  exact stray_of_tag legible noStray unbalanced ends parsed

/-- What is read from written content with a tag that is not balanced has a name that begins
with the end of a tag, whatever comes before and after it. -/
theorem stray_of_content
    {content : Content} (legible : content.EveryTag Tag.Legible)
    (noStray : content.EveryTag Tag.NoStray) (unbalanced : ¬ content.EveryTag Tag.Balanced)
    (waiting ahead : Text) (parent : OpenElement) (outer : List OpenElement)
    (root : Option Element) (names : List Text)
    (parsed : run ⟨parent :: outer, root⟩
      ⟨Reference.escapeText waiting ++ content.written ++ '<' :: ahead, names⟩ = .ok result) :
    ¬ result.EveryTag Tag.NoStray := by
  induction content generalizing waiting ahead parent outer root names with
  | empty => exact absurd trivial unbalanced
  | text characters after induction =>
      rw [waiting_text] at parsed
      exact induction legible noStray unbalanced _ _ _ _ _ _ parsed
  | element name attributes inner after inside behind =>
      obtain ⟨legibleTag, legibleInner, legibleAfter⟩ := legible
      obtain ⟨noStrayTag, noStrayInner, noStrayAfter⟩ := noStray
      rw [run_waiting] at parsed
      by_cases balancedTag : Tag.Balanced name attributes
      · by_cases balancedInner : inner.EveryTag Tag.Balanced
        · have unbalancedAfter : ¬ after.EveryTag Tag.Balanced := by
            intro balancedAfter
            exact unbalanced ⟨balancedTag, balancedInner, balancedAfter⟩
          have read := run_inside legibleInner balancedInner name attributes
          rw [run_element legibleTag balancedTag read rfl] at parsed
          exact behind legibleAfter noStrayAfter unbalancedAfter [] _ _ _ _ _ parsed
        · have inhabited : inner ≠ .empty := by
            rintro rfl
            exact balancedInner trivial
          rw [run_startTag legibleTag balancedTag inhabited,
            openElement_writtenInside legibleTag] at parsed
          exact inside legibleInner noStrayInner balancedInner [] _ _ _ _ _ parsed
      · exact stray_of_element legibleTag noStrayTag balancedTag parsed

end Builder

namespace Element

variable {root : Element}

theorem stray_of_parse
    {result : Element} (legible : root.EveryTag Tag.Legible)
    (noStray : root.EveryTag Tag.NoStray) (unbalanced : ¬ root.EveryTag Tag.Balanced)
    (parsed : Element.parse root.written = .ok result) :
    ¬ result.EveryTag Tag.NoStray := by
  rw [parse_written_eq] at parsed
  by_cases balancedTag : Tag.Balanced root.name root.attributes
  · have unbalancedContent : ¬ root.content.EveryTag Tag.Balanced := by
      intro balancedContent
      exact unbalanced ⟨balancedTag, balancedContent⟩
    have inhabited : root.content ≠ .empty := by
      intro vacant
      rw [vacant] at unbalancedContent
      exact unbalancedContent trivial
    rw [Builder.run_startTag legible.1 balancedTag inhabited,
      Builder.openElement_writtenInside legible.1] at parsed
    exact Builder.stray_of_content legible.2 noStray.2 unbalancedContent [] _ _ _ _ _ parsed
  · exact Builder.stray_of_element legible.1 noStray.1 balancedTag parsed

/-- A tree with legible names, none of which begins with the end of a tag, is read back up to
its texts exactly if all its tags are balanced. -/
theorem parse_written_iff
    (legible : root.EveryTag Tag.Legible) (noStray : root.EveryTag Tag.NoStray) :
    (∃ read, Element.parse root.written = .ok read ∧ read.joined = root.joined) ↔
      root.EveryTag Tag.Balanced := by
  constructor
  · intro ⟨read, parsed, same⟩
    apply Decidable.byContradiction
    intro unbalanced
    apply stray_of_parse legible noStray unbalanced parsed
    rw [← everyTag_joined, same, everyTag_joined]
    exact noStray
  · intro balanced
    exact ⟨root.joined, parse_written legible balanced, root.joined_joined⟩

end Element

end CleanSvg
