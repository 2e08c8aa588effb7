import CleanSvg.Proofs.Markup.RoundTrip

/-!
# Tags that do not end where they were written to end

A tag whose names open quotes and do not close them takes up what follows it,
brackets and all, and one whose names let a bracket out ends too soon.  Then
reading fails, or it finds a name that begins with the bracket that was missed.
No tree with other names is read back in that way, so balance of the names is
not only enough for reading back a tree: it is what reading back takes.
-/

namespace CleanSvg

theorem Text.split_at_sign
    {left right inside more : Text} {sign : Char}
    (same : left ++ right = inside ++ sign :: more) :
    (∃ tail, left = inside ++ sign :: tail) ∨
      ∃ begun, inside = left ++ begun ∧ right = begun ++ sign :: more := by
  rcases List.append_eq_append_iff.mp same with ⟨begun, longer, rest⟩ | ⟨tail, shorter, rest⟩
  · exact Or.inr ⟨begun, longer, rest⟩
  · cases tail with
    | nil =>
        rw [List.append_nil] at shorter
        refine Or.inr ⟨[], ?_, rest.symm⟩
        rw [List.append_nil, shorter]
    | cons first tail =>
        obtain ⟨rfl, _⟩ := List.cons.inj rest
        exact Or.inl ⟨tail, shorter⟩

theorem Text.getLast?_of_append
    {left right : Text} {last : Char} (nonempty : right ≠ [])
    (ended : (left ++ right).getLast? = some last) : right.getLast? = some last := by
  rw [List.getLast?_append] at ended
  cases own : right.getLast? with
  | none => exact absurd (List.getLast?_eq_none_iff.mp own) nonempty
  | some other => rwa [own] at ended

namespace Tag

/-- A text that begins with the end of a tag. -/
def BeginsWithEnd (text : Text) : Prop :=
  ['>'] <+: text ∨ ['/', '>'] <+: text

/-- No attribute has a name that begins with the end of a tag. -/
def NoStray (_ : Text) (attributes : List Attribute) : Prop :=
  ∀ attr ∈ attributes, ¬ BeginsWithEnd attr.name

theorem BeginsWithEnd.cases
    {text : Text} (begins : BeginsWithEnd text) :
    ∃ first others, text = first :: others ∧ isSpace first = false ∧
      BeginsWithEnd (first :: others.takeWhile continuesName) := by
  rcases begins with ⟨others, rfl⟩ | ⟨others, rfl⟩
  · exact ⟨'>', others, rfl, by decide, Or.inl ⟨_, rfl⟩⟩
  · refine ⟨'/', '>' :: others, rfl, by decide, Or.inr ?_⟩
    rw [List.takeWhile_cons_of_pos (by decide)]
    exact ⟨_, rfl⟩

theorem BeginsWithEnd.of_append
    {text more : Text} (begins : BeginsWithEnd (text ++ more)) (nonempty : text ≠ [])
    (noSlash : text ≠ ['/']) : BeginsWithEnd text := by
  cases text with
  | nil => exact absurd rfl nonempty
  | cons first others =>
      rcases begins with ⟨rest, same⟩ | ⟨rest, same⟩
      · obtain ⟨rfl, _⟩ := List.cons.inj same
        exact Or.inl ⟨others, rfl⟩
      · obtain ⟨rfl, behind⟩ := List.cons.inj same
        cases others with
        | nil => exact absurd rfl noSlash
        | cons second others =>
            obtain ⟨rfl, _⟩ := List.cons.inj behind
            exact Or.inr ⟨others, rfl⟩

theorem BeginsWithEnd.dropLast
    {text : Text} (begins : BeginsWithEnd text) (slash : text.getLast? = some '/') :
    BeginsWithEnd text.dropLast := by
  rcases begins with ⟨others, rfl⟩ | ⟨others, rfl⟩
  · cases others with
    | nil => cases slash
    | cons second others => exact Or.inl ⟨(second :: others).dropLast, rfl⟩
  · cases others with
    | nil => cases slash
    | cons third others => exact Or.inr ⟨(third :: others).dropLast, rfl⟩

theorem nextAttribute?_eq_none_iff
    {inside ahead : Text} {earlier : List RawAttribute} :
    nextAttribute? inside earlier ahead = .ok none ↔ ahead.dropWhile isSpace = [] := by
  unfold nextAttribute?
  split
  · rename_i nothing
    exact ⟨fun _ => nothing, fun _ => rfl⟩
  · rename_i first others begun
    rw [begun]
    refine ⟨?_, nofun⟩
    intro next
    simp only at next
    split at next
    · split at next
      · cases next
      · obtain ⟨_, _, same⟩ := bind_eq_ok_iff.mp next
        cases same
    · cases next

/-- What begins with the end of a tag is read as a name that does. -/
theorem attributesFrom_beginsWithEnd
    {inside ahead : Text} {earlier : List RawAttribute} {attributes : List Attribute}
    (begins : BeginsWithEnd ahead)
    (read : attributesFrom inside earlier ahead = .ok attributes) :
    ∃ attr ∈ attributes, BeginsWithEnd attr.name := by
  obtain ⟨first, others, rfl, visible, stray⟩ := begins.cases
  have dropped : (first :: others).dropWhile isSpace = first :: others := by
    apply List.dropWhile_cons_of_neg
    rw [visible]
    decide
  cases attributes with
  | nil =>
      have nothing := nextAttribute?_eq_none_iff.mp (attributesFrom_eq_nil read)
      rw [dropped] at nothing
      cases nothing
  | cons attr attributes =>
      obtain ⟨raw, rest, next, name, _⟩ := attributesFrom_eq_cons read
      obtain ⟨letter, letters, begun, stretch, _⟩ := nextAttribute?_eq_some next
      rw [dropped] at begun
      obtain ⟨rfl, rfl⟩ := List.cons.inj begun
      refine ⟨attr, List.mem_cons_self, ?_⟩
      rw [name, stretch]
      exact stray

theorem attributesFrom_cutOff
    {inside part : Text} {earlier : List RawAttribute} (nonempty : part ≠ [])
    (noSpace : ∀ character ∈ part, isSpace character = false) (noEquals : '=' ∉ part.tail)
    (attributes : List Attribute) :
    attributesFrom inside earlier (' ' :: part) ≠ .ok attributes := by
  cases part with
  | nil => exact absurd rfl nonempty
  | cons first others =>
      obtain ⟨visible, noSpace⟩ := List.forall_mem_cons.mp noSpace
      have continues : ∀ character ∈ others, continuesName character = true := by
        intro character member
        refine continuesName_iff.mpr ⟨?_, noSpace character member⟩
        rintro rfl
        exact noEquals member
      have begun : (' ' :: first :: others).dropWhile isSpace = first :: others := by
        rw [List.dropWhile_cons_of_pos (by decide)]
        apply List.dropWhile_cons_of_neg
        rw [visible]
        decide
      have ended : (others ++ []).dropWhile continuesName = [].dropWhile continuesName :=
        List.dropWhile_append_of_pos continues
      rw [List.append_nil] at ended
      have refused : nextAttribute? inside earlier (' ' :: first :: others) =
          .error (.expectedEquals (position inside [])) := by
        rw [nextAttribute?, begun]
        simp only [ended, List.dropWhile_nil]
      intro read
      rw [attributesFrom_of_error refused] at read
      cases read

theorem bracket_in_name
    {attributes : List Attribute} {before after : Text}
    (split : attributes.flatMap Attribute.written = before ++ '>' :: after) :
    ∃ left attr right part tail, attributes = left ++ attr :: right ∧
      before = left.flatMap Attribute.written ++ ' ' :: part ∧
        attr.name = part ++ '>' :: tail := by
  induction attributes generalizing before with
  | nil => simp at split
  | cons attr attributes induction =>
      rw [List.flatMap_cons] at split
      rcases Text.split_at_sign split with ⟨tail, here⟩ | ⟨begun, longer, later⟩
      · let quoted := '=' :: '"' :: Reference.escapeValue attr.value ++ ['"']
        have noBracket : '>' ∉ quoted := by
          have bland : '>' ∉ Reference.escapeValue attr.value := fun member =>
            (Reader.escapeValue_bland attr.value '>' member).1 rfl
          simp [quoted, bland]
        have parts : (' ' :: attr.name) ++ quoted = before ++ '>' :: tail := by
          rw [← here]
          simp [Attribute.written, quoted]
        rcases Text.split_at_sign parts with ⟨rest, inName⟩ | ⟨begun, _, inValue⟩
        · cases before with
          | nil => cases inName
          | cons space part =>
              obtain ⟨rfl, name⟩ := List.cons.inj inName
              exact ⟨[], attr, attributes, part, rest, rfl, rfl, name⟩
        · rw [inValue] at noBracket
          exact absurd (List.mem_append_right begun List.mem_cons_self) noBracket
      · obtain ⟨left, found, right, part, tail, rfl, rfl, name⟩ := induction later
        refine ⟨attr :: left, found, right, part, tail, rfl, ?_, name⟩
        rw [longer, List.flatMap_cons, List.append_assoc]

section

variable {name : Text} {attributes : List Attribute}

theorem Legible.left
    {later : List Attribute} (legible : Legible name (attributes ++ later)) :
    Legible name attributes where
  readable attr member := legible.readable attr (List.mem_append_left later member)
  distinct := (List.pairwise_append.mp legible.distinct).1
  nonempty := legible.nonempty
  plain := legible.plain

theorem element_writtenInside_append
    {extra others : Text} {element : Element} (legible : Legible name attributes)
    (spaced : attributes.flatMap Attribute.written ++ extra = ' ' :: others)
    (read : Tag.element (writtenInside name attributes ++ extra) = .ok element) :
    ∃ inside before later, attributesFrom inside before extra = .ok later ∧
      element.attributes = attributes ++ later := by
  obtain ⟨inside, before, whole⟩ :=
    element_written_append legible.noSpace legible.toSound (Or.inr ⟨others, spaced⟩)
  rw [writtenInside, List.append_assoc, whole] at read
  cases later : attributesFrom inside before extra with
  | error cause =>
      rw [later] at read
      cases read
  | ok found =>
      rw [later] at read
      cases read
      exact ⟨inside, before, found, later, rfl⟩

theorem flatMap_written_begins (inhabited : attributes ≠ []) (extra : Text) :
    ∃ others, attributes.flatMap Attribute.written ++ extra = ' ' :: others := by
  cases attributes with
  | nil => exact absurd rfl inhabited
  | cons attr attributes => exact ⟨_, rfl⟩

/-- A tag that takes up the end that was written for it has an attribute that begins with
that end. -/
theorem Legible.stray_of_longer
    {extra : Text} {element : Element} (legible : Legible name attributes)
    (inhabited : attributes ≠ []) (begins : BeginsWithEnd extra)
    (read : Tag.element (writtenInside name attributes ++ extra) = .ok element) :
    ¬ NoStray element.name element.attributes := by
  obtain ⟨others, spaced⟩ := flatMap_written_begins inhabited extra
  obtain ⟨inside, before, later, laterRead, whole⟩ :=
    element_writtenInside_append legible spaced read
  obtain ⟨attr, member, stray⟩ := attributesFrom_beginsWithEnd begins laterRead
  intro noStray
  apply noStray attr _ stray
  rw [whole]
  exact List.mem_append_right attributes member

theorem Legible.refused_of_part
    {attr : Attribute} {part tail : Text} {element : Element}
    (legible : Legible name (attributes ++ [attr])) (split : attr.name = part ++ tail)
    (nonempty : part ≠ []) :
    Tag.element (writtenInside name attributes ++ ' ' :: part) ≠ .ok element := by
  have readable := legible.readable attr (List.mem_append_right attributes List.mem_cons_self)
  have noSpace : ∀ character ∈ part, isSpace character = false := by
    intro character member
    apply readable.noSpace
    rw [split]
    exact List.mem_append_left tail member
  have noEquals : '=' ∉ part.tail := by
    intro member
    apply readable.noEquals
    rw [split, List.tail_append_of_ne_nil nonempty]
    exact List.mem_append_left tail member
  intro read
  obtain ⟨others, spaced⟩ : ∃ others,
      attributes.flatMap Attribute.written ++ ' ' :: part = ' ' :: others := by
    cases attributes with
    | nil => exact ⟨part, rfl⟩
    | cons first attributes => exact ⟨_, rfl⟩
  obtain ⟨inside, before, later, laterRead, _⟩ :=
    element_writtenInside_append legible.left spaced read
  exact attributesFrom_cutOff nonempty noSpace noEquals later laterRead

theorem Legible.refused_of_part_slash
    {attr : Attribute} {part tail : Text} {element : Element}
    (legible : Legible name (attributes ++ [attr])) (split : attr.name = part ++ '>' :: tail)
    (sound : ¬ BeginsWithEnd attr.name) (nonempty : part ≠ [])
    (slash : (writtenInside name attributes ++ ' ' :: part).getLast? = some '/') :
    Tag.element (writtenInside name attributes ++ ' ' :: part).dropLast ≠ .ok element := by
  have spaced : ([' '] ++ part).getLast? = some '/' :=
    Text.getLast?_of_append (List.cons_ne_nil _ _) slash
  obtain ⟨shorter, rfl⟩ :=
    List.getLast?_eq_some_iff.mp (Text.getLast?_of_append nonempty spaced)
  have stillNonempty : shorter ≠ [] := by
    rintro rfl
    exact sound (Or.inr ⟨tail, split.symm⟩)
  have kept : (writtenInside name attributes ++ ' ' :: (shorter ++ ['/'])).dropLast =
      writtenInside name attributes ++ ' ' :: shorter := by
    rw [← List.cons_append, ← List.append_assoc, List.dropLast_concat]
  rw [kept]
  rw [List.append_assoc] at split
  exact legible.refused_of_part split stillNonempty

theorem balanced_nil : Balanced name [] := rfl

/-- A tag that is not balanced takes up at least the end that was written for it. -/
theorem Legible.beginsWithEnd_of_longer
    {begun more : Text} (legible : Legible name attributes)
    (unbalanced : ¬ Balanced name attributes) (ends : BeginsWithEnd (begun ++ more))
    (followed : Reader.follow none (writtenInside name attributes ++ begun) = some none) :
    BeginsWithEnd begun := by
  rw [Reader.follow_append, legible.follow_writtenInside] at followed
  obtain ⟨quote, open_, followed⟩ := Option.bind_eq_some_iff.mp followed
  apply ends.of_append
  · rintro rfl
    cases followed
    exact unbalanced open_
  · rintro rfl
    have state := Reader.follow_mem (by decide) open_
    rw [Reader.follow_bland state (forall_mem_of_all (by decide))] at followed
    cases followed
    exact unbalanced open_

end

end Tag

namespace Reader

variable {name : Text} {attributes : List Attribute}

/-- A tag that is not balanced is read as another tag, which is refused or has an attribute
that begins with the end of a tag. -/
theorem next?_of_unbalanced
    {rest : Text} {opened : List Text} {event : Event} {after : Reader}
    (legible : Tag.Legible name attributes) (noStray : Tag.NoStray name attributes)
    (unbalanced : ¬ Tag.Balanced name attributes) (ends : Tag.BeginsWithEnd rest)
    (read : next? ⟨'<' :: Tag.writtenInside name attributes ++ rest, opened⟩ =
      .ok (some (event, after))) :
    ∃ inside, (event = .startTag inside ∨ event = .emptyTag inside) ∧
      ∀ element, Tag.element inside = .ok element →
        ¬ Tag.NoStray element.name element.attributes := by
  have inhabited : attributes ≠ [] := by
    rintro rfl
    exact unbalanced Tag.balanced_nil
  obtain ⟨result, markup, same⟩ := bind_eq_ok_iff.mp read
  cases same
  obtain ⟨first, others, begins, letter⟩ := legible.begins
    (attributes.flatMap Attribute.written ++ rest)
  have whole : Tag.writtenInside name attributes ++ rest = first :: others := by
    rw [← begins, Tag.writtenInside, List.append_assoc]
  simp only [List.append_eq, whole] at markup
  rw [readMarkup_of_letter letter, ← whole] at markup
  obtain ⟨inside, behind, split, followed, event_⟩ := readStartTag_eq_ok markup
  rcases Text.split_at_sign split with ⟨tail, shorter⟩ | ⟨begun, rfl, longer⟩
  · rcases Text.split_at_sign shorter with ⟨rest, inName⟩ | ⟨begun, rfl, inAttributes⟩
    · have member : '>' ∈ name := by
        rw [inName]
        exact List.mem_append_right inside List.mem_cons_self
      exact absurd member (legible.plain '>' (by decide))
    · obtain ⟨left, attr, right, part, tail, rfl, rfl, cut⟩ := Tag.bracket_in_name inAttributes
      have sound : ¬ Tag.BeginsWithEnd attr.name :=
        noStray attr (List.mem_append_right left List.mem_cons_self)
      rw [List.append_cons] at legible
      have nonempty : part ≠ [] := by
        rintro rfl
        exact sound (Or.inl ⟨tail, cut.symm⟩)
      have whole : name ++ (left.flatMap Attribute.written ++ ' ' :: part) =
          Tag.writtenInside name left ++ ' ' :: part :=
        (List.append_assoc _ _ _).symm
      rw [whole] at event_
      rcases event_ with ⟨slash, rfl, _⟩ | ⟨_, rfl, _⟩
      · exact ⟨_, Or.inr rfl, fun element elementRead => absurd elementRead
          (legible.left.refused_of_part_slash cut sound nonempty slash)⟩
      · exact ⟨_, Or.inl rfl, fun element elementRead => absurd elementRead
          (legible.left.refused_of_part cut nonempty)⟩
  · have started : Tag.BeginsWithEnd begun := by
      rw [longer] at ends
      exact legible.beginsWithEnd_of_longer unbalanced ends followed
    rcases event_ with ⟨slash, rfl, _⟩ | ⟨_, rfl, _⟩
    · have nonempty : begun ≠ [] := by
        rintro rfl
        obtain ⟨first, others, same, _⟩ := started.cases
        cases same
      have slash : begun.getLast? = some '/' := Text.getLast?_of_append nonempty slash
      refine ⟨_, Or.inr rfl, ?_⟩
      intro element elementRead
      rw [List.dropLast_append_of_ne_nil nonempty] at elementRead
      exact legible.stray_of_longer inhabited (started.dropLast slash) elementRead
    · exact ⟨_, Or.inl rfl, fun element => legible.stray_of_longer inhabited started⟩

end Reader

end CleanSvg
