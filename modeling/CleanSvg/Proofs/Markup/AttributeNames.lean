import CleanSvg.Proofs.Markup.EveryTag

/-!
# Names that a tag can hold

The name of an attribute is a stretch of its tag without white space, and only
its first character may be an equals sign.  Nothing else is refused in a name;
but a closing bracket in it must stand inside quotes, or the tag would end there.
-/

namespace CleanSvg.Tag

/-- What every name of an attribute is like. -/
structure Readable (name : Text) : Prop where
  nonempty : name ≠ []
  noSpace : ∀ character ∈ name, isSpace character = false
  noEquals : '=' ∉ name.tail
  hidden : ∃ quote ∈ Reader.quoteStates, (Reader.follow quote name).isSome = true

/-- No two attributes have names that differ in nothing but the case of ASCII letters. -/
def Distinct (attributes : List Attribute) : Prop :=
  attributes.Pairwise fun left right =>
    Text.equalsIgnoringAsciiCase left.name right.name = false

/-- Attributes that a tag can hold together. -/
structure Sound (attributes : List Attribute) : Prop where
  readable : ∀ attr ∈ attributes, Readable attr.name
  distinct : Distinct attributes

/-- A stretch of a text that has the form of a name. -/
structure NameIn (ahead name : Text) : Prop where
  inside : name <:+: ahead
  nonempty : name ≠ []
  noSpace : ∀ character ∈ name, isSpace character = false
  noEquals : '=' ∉ name.tail

theorem NameIn.of_suffix
    {rest ahead name : Text} (named : NameIn rest name) (behind : rest <:+ ahead) :
    NameIn ahead name :=
  { named with inside := named.inside.trans behind.isInfix }

theorem NameIn.readable
    {inside name : Text} (named : NameIn inside name)
    (bracketed : (Reader.follow none inside).isSome = true) : Readable name :=
  { named with hidden := Reader.follow_of_infix (by decide) named.inside bracketed }

theorem dropWhile_head
    {refuse : Char → Bool} {text others : Text} {first : Char}
    (left : text.dropWhile refuse = first :: others) : refuse first = false := by
  have head := List.head?_dropWhile_not refuse text
  rw [left] at head
  exact head

theorem dropWhile_tail
    {refuse : Char → Bool} {text others : Text} {first : Char}
    (left : text.dropWhile refuse = first :: others) : others <:+ text := by
  have suffix := List.dropWhile_suffix (l := text) refuse
  rw [left] at suffix
  exact (List.suffix_cons first others).trans suffix

theorem continuesName_iff {character : Char} :
    continuesName character = true ↔ character ≠ '=' ∧ isSpace character = false := by
  simp [continuesName]

theorem nameIn_of_begun
    {ahead others : Text} {first : Char}
    (begun : ahead.dropWhile isSpace = first :: others) :
    NameIn ahead (first :: others.takeWhile continuesName) := by
  have continued : ∀ character ∈ others.takeWhile continuesName,
      continuesName character = true := by
    exact List.all_eq_true.mp List.all_takeWhile
  refine ⟨?_, nofun, ?_, ?_⟩
  · have begins : (first :: others.takeWhile continuesName) <+: first :: others :=
      (List.prefix_cons_inj first).mpr (List.takeWhile_prefix _)
    rw [← begun] at begins
    exact begins.isInfix.trans (List.dropWhile_suffix _).isInfix
  · refine List.forall_mem_cons.mpr ⟨dropWhile_head begun, ?_⟩
    intro character member
    exact (continuesName_iff.mp (continued character member)).2
  · intro member
    exact (continuesName_iff.mp (continued '=' member)).1 rfl

theorem readValue_suffix
    {inside ahead value rest : Text}
    (read : readValue inside ahead = .ok (value, rest)) : rest <:+ ahead := by
  unfold readValue at read
  split at read
  · cases read
  · rename_i quote body opened
    split at read
    · split at read
      · cases read
      · rename_i closing rest closed
        cases read
        exact (dropWhile_tail closed).trans (dropWhile_tail opened)
    · cases read

/-- The next attribute is named by what lies ahead first, and what is left comes after that
name. -/
theorem nextAttribute?_eq_some
    {inside ahead rest : Text} {earlier : List RawAttribute} {raw : RawAttribute}
    (read : nextAttribute? inside earlier ahead = .ok (some (raw, rest))) :
    ∃ first others, ahead.dropWhile isSpace = first :: others ∧
      raw.name = first :: others.takeWhile continuesName ∧
        rest <:+ others.dropWhile continuesName := by
  unfold nextAttribute? at read
  split at read
  · cases read
  · rename_i first others begun
    simp only at read
    split at read
    · rename_i afterEquals found
      split at read
      · cases read
      · obtain ⟨⟨value, left⟩, valueRead, same⟩ := bind_eq_ok_iff.mp read
        cases same
        exact ⟨first, others, begun, rfl, (readValue_suffix valueRead).trans (dropWhile_tail found)⟩
    · cases read

theorem nextAttribute?_nameIn
    {inside ahead rest : Text} {earlier : List RawAttribute} {raw : RawAttribute}
    (read : nextAttribute? inside earlier ahead = .ok (some (raw, rest))) :
    NameIn ahead raw.name ∧ rest <:+ ahead := by
  obtain ⟨first, others, begun, name, behind⟩ := nextAttribute?_eq_some read
  rw [name]
  exact ⟨nameIn_of_begun begun,
    (behind.trans (List.dropWhile_suffix _)).trans (dropWhile_tail begun)⟩

theorem nextAttribute?_sublist
    {inside ahead rest : Text} {earlier : List RawAttribute} {raw : RawAttribute}
    (read : nextAttribute? inside earlier ahead = .ok (some (raw, rest))) :
    (raw.name ++ rest).Sublist ahead := by
  obtain ⟨first, others, begun, name, behind⟩ := nextAttribute?_eq_some read
  have whole : (others.takeWhile continuesName ++ rest).Sublist others := by
    have both := behind.sublist.append_left (others.takeWhile continuesName)
    rwa [List.takeWhile_append_dropWhile] at both
  rw [name, List.cons_append]
  refine (whole.cons_cons first).trans ?_
  rw [← begun]
  exact List.dropWhile_sublist _

theorem attributesFrom_of_error
    {inside ahead : Text} {earlier : List RawAttribute} {cause : AttributeError}
    (next : nextAttribute? inside earlier ahead = .error cause) :
    attributesFrom inside earlier ahead = .error (.malformedAttribute cause) := by
  rw [attributesFrom]
  split <;> simp_all

theorem attributesFrom_of_end
    {inside ahead : Text} {earlier : List RawAttribute}
    (next : nextAttribute? inside earlier ahead = .ok none) :
    attributesFrom inside earlier ahead = .ok [] := by
  rw [attributesFrom]
  split <;> simp_all

theorem attributesFrom_of_next
    {inside ahead rest : Text} {earlier : List RawAttribute} {raw : RawAttribute}
    (next : nextAttribute? inside earlier ahead = .ok (some (raw, rest))) :
    attributesFrom inside earlier ahead =
      if earlier.any fun candidate =>
          Text.equalsIgnoringAsciiCase candidate.name raw.name then
        .error (.duplicateAttribute raw.name)
      else (do
        let value ← (Reference.unescape raw.value).mapError .malformedReference
        let others ← attributesFrom inside (raw :: earlier) rest
        .ok (⟨raw.name, value⟩ :: others)) := by
  rw [attributesFrom]
  split
  · simp_all
  · simp_all
  · rename_i found
    rw [next] at found
    cases found
    rfl

theorem attributesFrom_eq_nil
    {inside ahead : Text} {earlier : List RawAttribute}
    (read : attributesFrom inside earlier ahead = .ok []) :
    nextAttribute? inside earlier ahead = .ok none := by
  cases next : nextAttribute? inside earlier ahead with
  | error cause =>
      rw [attributesFrom_of_error next] at read
      cases read
  | ok found =>
      cases found with
      | none => rfl
      | some found =>
          rw [attributesFrom_of_next next] at read
          split at read
          · cases read
          · obtain ⟨_, _, read⟩ := bind_eq_ok_iff.mp read
            obtain ⟨_, _, same⟩ := bind_eq_ok_iff.mp read
            cases same

theorem attributesFrom_eq_cons
    {inside ahead : Text} {earlier : List RawAttribute} {attr : Attribute}
    {others : List Attribute} (read : attributesFrom inside earlier ahead = .ok (attr :: others)) :
    ∃ raw rest, nextAttribute? inside earlier ahead = .ok (some (raw, rest)) ∧
      attr.name = raw.name ∧
      (∀ candidate ∈ earlier,
        Text.equalsIgnoringAsciiCase candidate.name raw.name = false) ∧
      attributesFrom inside (raw :: earlier) rest = .ok others := by
  cases next : nextAttribute? inside earlier ahead with
  | error cause =>
      rw [attributesFrom_of_error next] at read
      cases read
  | ok found =>
      cases found with
      | none =>
          rw [attributesFrom_of_end next] at read
          cases read
      | some found =>
          obtain ⟨raw, rest⟩ := found
          rw [attributesFrom_of_next next] at read
          split at read
          · cases read
          · rename_i fresh
            obtain ⟨value, _, read⟩ := bind_eq_ok_iff.mp read
            obtain ⟨later, laterRead, same⟩ := bind_eq_ok_iff.mp read
            cases same
            rw [Bool.not_eq_true, List.any_eq_false] at fresh
            refine ⟨raw, rest, rfl, rfl, ?_, laterRead⟩
            intro candidate member
            exact Bool.eq_false_iff.mpr (fresh candidate member)

variable {inside ahead : Text} {earlier : List RawAttribute} {attributes : List Attribute}

theorem attributesFrom_nameIn
    (read : attributesFrom inside earlier ahead = .ok attributes) :
    ∀ attr ∈ attributes, NameIn ahead attr.name := by
  induction attributes generalizing earlier ahead with
  | nil => exact nofun
  | cons attr others induction =>
      obtain ⟨raw, rest, next, name, _, othersRead⟩ := attributesFrom_eq_cons read
      obtain ⟨named, behind⟩ := nextAttribute?_nameIn next
      rw [← name] at named
      refine List.forall_mem_cons.mpr ⟨named, ?_⟩
      intro other member
      exact (induction othersRead other member).of_suffix behind

theorem attributesFrom_sublist
    (read : attributesFrom inside earlier ahead = .ok attributes) :
    (attributes.flatMap Attribute.name).Sublist ahead := by
  induction attributes generalizing earlier ahead with
  | nil => exact List.nil_sublist ahead
  | cons attr others induction =>
      obtain ⟨raw, rest, next, name, _, othersRead⟩ := attributesFrom_eq_cons read
      rw [List.flatMap_cons, name]
      exact ((induction othersRead).append_left raw.name).trans (nextAttribute?_sublist next)

/-- The names that are read differ from each other and from those that came before. -/
theorem attributesFrom_distinct
    (read : attributesFrom inside earlier ahead = .ok attributes) :
    Distinct attributes ∧ ∀ raw ∈ earlier, ∀ attr ∈ attributes,
      Text.equalsIgnoringAsciiCase raw.name attr.name = false := by
  induction attributes generalizing earlier ahead with
  | nil => exact ⟨.nil, fun _ _ => nofun⟩
  | cons attr others induction =>
      obtain ⟨raw, rest, _, name, fresh, othersRead⟩ := attributesFrom_eq_cons read
      obtain ⟨distinct, apart⟩ := induction othersRead
      obtain ⟨apartFirst, apart⟩ := List.forall_mem_cons.mp apart
      rw [← name] at fresh apartFirst
      refine ⟨.cons apartFirst distinct, ?_⟩
      intro candidate member
      exact List.forall_mem_cons.mpr ⟨fresh candidate member, apart candidate member⟩

theorem ensures_sound : Ensures fun _ attributes => Sound attributes := by
  intro inside element bracketed read
  obtain ⟨attributes, attributesRead, same⟩ := bind_eq_ok_iff.mp read
  cases same
  refine ⟨?_, (attributesFrom_distinct attributesRead).1⟩
  intro attr member
  have named := (attributesFrom_nameIn attributesRead attr member).of_suffix
    (List.dropWhile_suffix _)
  exact named.readable bracketed

end CleanSvg.Tag
