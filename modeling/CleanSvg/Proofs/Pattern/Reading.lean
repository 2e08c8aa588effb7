import CleanSvg.Text.Pattern

/-!
# What patterns read

Every pattern of the library is put together from a few small ones.  The lemmas
below say what each way of putting them together reads, so that statements
about a pattern are derived from its parts and no reader is unfolded again.
-/

namespace CleanSvg.Pattern

variable {α β : Type}

theorem read_bind_eq_some_iff
    {first : Pattern α} {second : α → Pattern β} {text : Text}
    {piece : Piece β} :
    (first >>= second).read text = some piece ↔
      ∃ start rest, first.read text = some start ∧
        (second start.value).read start.ahead = some rest ∧
          piece = ⟨rest.value, start.taken ++ rest.taken, rest.ahead⟩ := by
  show (first.andThen second).read text = some piece ↔ _
  simp only [andThen]
  constructor
  · intro found
    split at found
    · cases found
    · rename_i start foundStart
      split at found
      · cases found
      · rename_i rest foundRest
        cases found
        exact ⟨start, rest, foundStart, foundRest, rfl⟩
  · rintro ⟨start, rest, foundStart, foundRest, rfl⟩
    simp only [foundStart, foundRest]

theorem read_bind_of_some
    {first : Pattern α} {text : Text} {start : Piece α}
    (found : first.read text = some start) (second : α → Pattern β) :
    (first >>= second).read text =
      ((second start.value).read start.ahead).map fun rest =>
        ⟨rest.value, start.taken ++ rest.taken, rest.ahead⟩ := by
  show (first.andThen second).read text = _
  simp only [andThen, found]
  cases (second start.value).read start.ahead <;> rfl

theorem read_orElse (first second : Pattern α) (text : Text) :
    (first <|> second).read text = (first.read text).or (second.read text) := by
  show (first.orElse second).read text = _
  simp only [orElse]
  cases first.read text <;> rfl

theorem read_orElse_eq_some_iff
    {first second : Pattern α} {text : Text} {piece : Piece α} :
    (first <|> second).read text = some piece ↔
      first.read text = some piece ∨
        first.read text = none ∧ second.read text = some piece := by
  rw [read_orElse]
  cases first.read text <;> simp

theorem read_one_eq_some_iff
    {belongs : Char → Bool} {text : Text} {piece : Piece Char} :
    (one belongs).read text = some piece ↔
      ∃ character ahead, text = character :: ahead ∧
        belongs character = true ∧ piece = ⟨character, [character], ahead⟩ := by
  cases text with
  | nil => simp [one]
  | cons character ahead =>
      simp only [one, List.cons.injEq]
      constructor
      · intro found
        split at found
        · rename_i member
          cases found
          exact ⟨character, ahead, ⟨rfl, rfl⟩, member, rfl⟩
        · cases found
      · rintro ⟨first, rest, ⟨rfl, rfl⟩, member, rfl⟩
        rw [if_pos member]

theorem read_symbol_eq_some_iff
    {character : Char} {text : Text} {piece : Piece Unit} :
    (symbol character).read text = some piece ↔
      ∃ ahead, text = character :: ahead ∧ piece = ⟨(), [character], ahead⟩ := by
  show ((one fun candidate => candidate == character) >>=
    fun _ => pure ()).read text = some piece ↔ _
  rw [read_bind_eq_some_iff]
  constructor
  · rintro ⟨start, rest, foundStart, foundRest, rfl⟩
    obtain ⟨first, ahead, rfl, same, rfl⟩ := read_one_eq_some_iff.mp foundStart
    cases foundRest
    exact ⟨ahead, by simpa using same, by simpa using same⟩
  · rintro ⟨ahead, rfl, rfl⟩
    exact ⟨⟨character, [character], ahead⟩, ⟨(), [], ahead⟩,
      read_one_eq_some_iff.mpr ⟨character, ahead, rfl, by simp, rfl⟩, rfl, rfl⟩

@[simp] theorem read_blanks (text : Text) :
    blanks.read text =
      some ⟨(), text.takeWhile Text.isBlank, text.dropWhile Text.isBlank⟩ := by
  simp [blanks, andThen, run, nothing]

theorem read_keyword_eq_some_iff
    {word text : Text} {piece : Piece Unit} :
    (keyword word).read text = some piece ↔
      ∃ spelling ahead, spelling.map Text.foldCase = word ∧
        text = spelling ++ ahead ∧ piece = ⟨(), spelling, ahead⟩ := by
  simp only [keyword, Option.map_eq_some_iff]
  constructor
  · rintro ⟨ahead, follows, rfl⟩
    obtain ⟨spelling, folded, rfl⟩ := Text.afterKeyword?_eq_some_iff.mp follows
    exact ⟨spelling, ahead, folded, rfl, by simp [← folded]⟩
  · rintro ⟨spelling, ahead, folded, rfl, rfl⟩
    exact ⟨ahead, Text.afterKeyword?_eq_some_iff.mpr ⟨spelling, folded, rfl⟩,
      by simp [← folded]⟩

theorem read_atEnd_eq_some_iff {text : Text} {piece : Piece Unit} :
    atEnd.read text = some piece ↔ text = [] ∧ piece = ⟨(), [], []⟩ := by
  cases text <;> simp [atEnd, eq_comm]

theorem read_optional_of_some
    {inner : Pattern α} {text : Text} {piece : Piece α}
    (found : inner.read text = some piece) :
    (optional inner).read text = some ⟨(), piece.taken, piece.ahead⟩ := by
  simp [optional, orElse, andThen, nothing, found]

theorem read_optional_of_none
    {inner : Pattern α} {text : Text} (refused : inner.read text = none) :
    (optional inner).read text = some ⟨(), [], text⟩ := by
  simp [optional, orElse, andThen, nothing, refused]

theorem read_runUpTo_append
    {belongs : Char → Bool} {most : Nat} {members : Text} {next : Char}
    (belong : ∀ character ∈ members, belongs character = true)
    (few : members.length ≤ most) (foreign : belongs next = false) (ahead : Text) :
    (runUpTo most belongs).read (members ++ next :: ahead) =
      some ⟨members, members, next :: ahead⟩ := by
  have taken : ((members ++ next :: ahead).take most).takeWhile belongs = members := by
    rw [List.take_append, List.take_of_length_le few,
      List.takeWhile_append_of_pos belong]
    cases most - members.length <;> simp [foreign]
  simp [runUpTo, taken]

private theorem throughFrom_eq_some
    {stop : Pattern α} {behind text : Text} {piece : Piece Text}
    (found : throughFrom stop behind text = some piece) :
    ∃ passed rest last, text = passed ++ rest ∧ stop.read rest = some last ∧
      piece = ⟨behind.reverse ++ passed, behind.reverse ++ passed ++ last.taken,
        last.ahead⟩ := by
  induction text generalizing behind with
  | nil =>
      obtain ⟨last, read, rfl⟩ := Option.map_eq_some_iff.mp found
      exact ⟨[], [], last, rfl, read, by simp⟩
  | cons character ahead induction =>
      rw [throughFrom] at found
      split at found
      · rename_i last read
        cases found
        exact ⟨[], character :: ahead, last, rfl, read, by simp⟩
      · obtain ⟨passed, rest, last, rfl, read, rfl⟩ := induction found
        exact ⟨character :: passed, rest, last, rfl, read, by simp⟩

theorem read_through
    {stop : Pattern α} {text : Text} {piece : Piece Text}
    (found : (through stop).read text = some piece) :
    ∃ rest last, text = piece.value ++ rest ∧ stop.read rest = some last ∧
      piece.taken = piece.value ++ last.taken ∧ piece.ahead = last.ahead := by
  obtain ⟨passed, rest, last, split, read, rfl⟩ := throughFrom_eq_some found
  exact ⟨rest, last, by simpa using split, read, by simp, rfl⟩

private theorem throughFrom_of_first
    {stop : Pattern α} {passed rest : Text} {last : Piece α}
    (early : ∀ inner, inner <:+ passed → inner ≠ [] → stop.read (inner ++ rest) = none)
    (stops : stop.read rest = some last) (behind : Text) :
    throughFrom stop behind (passed ++ rest) =
      some ⟨behind.reverse ++ passed, behind.reverse ++ passed ++ last.taken,
        last.ahead⟩ := by
  induction passed generalizing behind with
  | nil => cases rest <;> simp [throughFrom, stops]
  | cons character passed induction =>
      have refused := early (character :: passed) (List.suffix_refl _) (by simp)
      have later : ∀ inner, inner <:+ passed → inner ≠ [] →
          stop.read (inner ++ rest) = none := by
        intro inner inside
        exact early inner (inside.trans (List.suffix_cons character passed))
      rw [List.cons_append] at refused ⊢
      simp [throughFrom, refused, induction later]

/-- Passing over a text ends at the first place where `stop` reads. -/
theorem read_through_of_first
    {stop : Pattern α} {passed rest : Text} {last : Piece α}
    (early : ∀ inner, inner <:+ passed → inner ≠ [] → stop.read (inner ++ rest) = none)
    (stops : stop.read rest = some last) :
    (through stop).read (passed ++ rest) =
      some ⟨passed, passed ++ last.taken, last.ahead⟩ :=
  throughFrom_of_first early stops []

theorem read_through_symbol
    {sign : Char} {passed : Text} (absent : sign ∉ passed) (ahead : Text) :
    (through (symbol sign)).read (passed ++ sign :: ahead) =
      some ⟨passed, passed ++ [sign], ahead⟩ := by
  have early : ∀ inner, inner <:+ passed → inner ≠ [] →
      (symbol sign).read (inner ++ sign :: ahead) = none := by
    intro inner inside nonempty
    obtain ⟨first, others, rfl⟩ := List.exists_cons_of_ne_nil nonempty
    rw [Option.eq_none_iff_forall_not_mem]
    intro piece read
    obtain ⟨_, same, _⟩ := read_symbol_eq_some_iff.mp read
    rw [(List.cons.inj same).1] at inside
    exact absent (inside.subset List.mem_cons_self)
  exact read_through_of_first early (read_symbol_eq_some_iff.mpr ⟨ahead, rfl, rfl⟩)

theorem read_through_symbol_isSome_iff {sign : Char} {text : Text} :
    ((through (symbol sign)).read text).isSome = true ↔ sign ∈ text := by
  rw [Option.isSome_iff_exists]
  constructor
  · rintro ⟨piece, found⟩
    obtain ⟨rest, last, split, stopped, _⟩ := read_through found
    obtain ⟨ahead, rfl, _⟩ := read_symbol_eq_some_iff.mp stopped
    rw [split]
    exact List.mem_append_right _ List.mem_cons_self
  · intro member
    obtain ⟨passed, ahead, rfl, absent⟩ := List.eq_append_cons_of_mem member
    exact ⟨_, read_through_symbol absent ahead⟩

private theorem throughFrom_isSome
    {stop : Pattern α} (stopsAtEnd : (stop.read []).isSome = true)
    (behind text : Text) : (throughFrom stop behind text).isSome = true := by
  induction text generalizing behind with
  | nil => simpa [throughFrom] using stopsAtEnd
  | cons character ahead induction =>
      rw [throughFrom]
      split
      · rfl
      · exact induction (character :: behind)

/-- A search that the end of the text can stop always comes to an end. -/
theorem read_through_isSome
    {stop : Pattern α} (stopsAtEnd : (stop.read []).isSome = true) (text : Text) :
    ((through stop).read text).isSome = true :=
  throughFrom_isSome stopsAtEnd [] text

/-- The pattern reads at the beginning of a text and leaves the rest of it. -/
def Leaves (pattern : Pattern α) (text rest : Text) : Prop :=
  ∃ piece, pattern.read text = some piece ∧ piece.ahead = rest

namespace Leaves

theorem bind
    {first : Pattern α} {second : α → Pattern β} {text middle rest : Text}
    (leavesFirst : first.Leaves text middle)
    (leavesSecond : ∀ value, (second value).Leaves middle rest) :
    (first >>= second).Leaves text rest := by
  obtain ⟨start, foundStart, rfl⟩ := leavesFirst
  obtain ⟨next, foundNext, rfl⟩ := leavesSecond start.value
  exact ⟨_, read_bind_eq_some_iff.mpr ⟨start, next, foundStart, foundNext, rfl⟩, rfl⟩

theorem orElse_left
    {first : Pattern α} {text rest : Text} (leaves : first.Leaves text rest)
    (second : Pattern α) : (first <|> second).Leaves text rest := by
  obtain ⟨piece, found, same⟩ := leaves
  exact ⟨piece, read_orElse_eq_some_iff.mpr (Or.inl found), same⟩

theorem orElse_right
    {first second : Pattern α} {text rest : Text} (refused : first.read text = none)
    (leaves : second.Leaves text rest) : (first <|> second).Leaves text rest := by
  obtain ⟨piece, found, same⟩ := leaves
  exact ⟨piece, read_orElse_eq_some_iff.mpr (Or.inr ⟨refused, found⟩), same⟩

theorem pure (value : α) (text : Text) : (Pure.pure value : Pattern α).Leaves text text :=
  ⟨⟨value, [], text⟩, rfl, rfl⟩

theorem optional
    {inner : Pattern α} {text rest : Text} (leaves : inner.Leaves text rest) :
    (optional inner).Leaves text rest := by
  obtain ⟨piece, found, same⟩ := leaves
  exact ⟨_, read_optional_of_some found, same⟩

theorem optional_of_none
    {inner : Pattern α} {text : Text} (refused : inner.read text = none) :
    (Pattern.optional inner).Leaves text text :=
  ⟨_, read_optional_of_none refused, rfl⟩

theorem symbol (character : Char) (ahead : Text) :
    (symbol character).Leaves (character :: ahead) ahead :=
  ⟨_, read_symbol_eq_some_iff.mpr ⟨ahead, rfl, rfl⟩, rfl⟩

theorem one
    {belongs : Char → Bool} {character : Char} (member : belongs character = true)
    (ahead : Text) : (one belongs).Leaves (character :: ahead) ahead :=
  ⟨_, read_one_eq_some_iff.mpr ⟨character, ahead, rfl, member, rfl⟩, rfl⟩

theorem blanks (text : Text) : blanks.Leaves text (text.dropWhile Text.isBlank) :=
  ⟨_, read_blanks text, rfl⟩

theorem upTo (character : Char) (text : Text) :
    (upTo character).Leaves text (text.dropWhile (· != character)) :=
  ⟨_, rfl, rfl⟩

theorem keyword
    {word : Text} (folded : word.map Text.foldCase = word) (ahead : Text) :
    (keyword word).Leaves (word ++ ahead) ahead :=
  ⟨_, read_keyword_eq_some_iff.mpr ⟨word, ahead, folded, rfl, rfl⟩, rfl⟩

theorem through_symbol
    {sign : Char} {passed : Text} (absent : sign ∉ passed) (ahead : Text) :
    (through (Pattern.symbol sign)).Leaves (passed ++ sign :: ahead) ahead :=
  ⟨_, read_through_symbol absent ahead, rfl⟩

end Leaves

/-- At the beginning of a text the pattern reads the same whether the text ends or goes on
with a certain character. -/
def EndsBefore (pattern : Pattern α) (next : Char) (text : Text) : Prop :=
  ∀ ahead, pattern.read (text ++ next :: ahead) =
    (pattern.read text).map fun piece =>
      ⟨piece.value, piece.taken, piece.ahead ++ next :: ahead⟩

namespace EndsBefore

variable {next : Char} {text : Text}

theorem bind
    {first : Pattern α} {second : α → Pattern β} (endsFirst : first.EndsBefore next text)
    (endsSecond : ∀ start, first.read text = some start →
      (second start.value).EndsBefore next start.ahead) :
    (first >>= second).EndsBefore next text := by
  intro ahead
  have extended := endsFirst ahead
  cases found : first.read text with
  | none =>
      rw [found] at extended
      show (first.andThen second).read _ = ((first.andThen second).read _).map _
      simp only [andThen, extended, found, Option.map_none]
  | some start =>
      rw [found] at extended
      rw [read_bind_of_some extended, read_bind_of_some found, endsSecond start found ahead,
        Option.map_map, Option.map_map]
      rfl

theorem orElse
    {first second : Pattern α} (endsFirst : first.EndsBefore next text)
    (endsSecond : second.EndsBefore next text) : (first <|> second).EndsBefore next text := by
  intro ahead
  rw [read_orElse, read_orElse, endsFirst ahead, endsSecond ahead]
  cases first.read text <;> rfl

theorem pure (value : α) : (Pure.pure value : Pattern α).EndsBefore next text :=
  fun _ => rfl

theorem optional {inner : Pattern α} (ends : inner.EndsBefore next text) :
    (optional inner).EndsBefore next text := by
  intro ahead
  have extended := ends ahead
  cases found : inner.read text with
  | none =>
      rw [found] at extended
      rw [read_optional_of_none found, read_optional_of_none extended]
      rfl
  | some piece =>
      rw [found] at extended
      rw [read_optional_of_some found, read_optional_of_some extended]
      rfl

/-- A single character is not looked for behind the end of a text that has one. -/
theorem one_of_ne_nil {belongs : Char → Bool} (nonempty : text ≠ []) :
    (one belongs).EndsBefore next text := by
  intro ahead
  cases text with
  | nil => exact absurd rfl nonempty
  | cons character others =>
      simp only [one, List.cons_append]
      split <;> rfl

theorem one {belongs : Char → Bool} (foreign : belongs next = false) :
    (one belongs).EndsBefore next text := by
  cases text with
  | nil => exact fun ahead => by simp [Pattern.one, foreign]
  | cons character others => exact one_of_ne_nil (List.cons_ne_nil character others)

theorem symbol {sign : Char} (differs : next ≠ sign) :
    (symbol sign).EndsBefore next text :=
  .bind (.one (beq_eq_false_iff_ne.mpr differs)) fun _ _ => .pure ()

theorem runUpTo {most : Nat} {belongs : Char → Bool} (foreign : belongs next = false) :
    (runUpTo most belongs).EndsBefore next text := by
  intro ahead
  have stays : ((next :: ahead).take (most - text.length)).takeWhile belongs = [] := by
    cases most - text.length <;> simp [foreign]
  have same : ((text ++ next :: ahead).take most).takeWhile belongs =
      (text.take most).takeWhile belongs := by
    rw [List.take_append, List.takeWhile_append, stays]
    split
    · rename_i whole
      rw [List.append_nil, (List.takeWhile_prefix belongs).eq_of_length whole]
    · rfl
  have inside : ((text.take most).takeWhile belongs).length ≤ text.length :=
    ((List.takeWhile_prefix belongs).trans (List.take_prefix most text)).length_le
  simp [Pattern.runUpTo, same, List.drop_append_of_le_length inside]

end EndsBefore

/-- Wherever a pattern reads, it takes at least so many characters. -/
def TakesAtLeast (pattern : Pattern α) (least : Nat) : Prop :=
  ∀ text piece, pattern.read text = some piece → least ≤ piece.taken.length

namespace TakesAtLeast

theorem mono {pattern : Pattern α} {least less : Nat}
    (takes : pattern.TakesAtLeast least) (lower : less ≤ least) :
    pattern.TakesAtLeast less :=
  fun text piece found => Nat.le_trans lower (takes text piece found)

theorem bind {first : Pattern α} {second : α → Pattern β} {least more : Nat}
    (takesFirst : first.TakesAtLeast least)
    (takesSecond : ∀ value, (second value).TakesAtLeast more) :
    (first >>= second).TakesAtLeast (least + more) := by
  intro text piece found
  obtain ⟨start, rest, foundStart, foundRest, rfl⟩ :=
    read_bind_eq_some_iff.mp found
  have lower := takesFirst text start foundStart
  have upper := takesSecond start.value start.ahead rest foundRest
  simp only [List.length_append]
  omega

theorem bind_left {first : Pattern α} {second : α → Pattern β} {least : Nat}
    (takesFirst : first.TakesAtLeast least) :
    (first >>= second).TakesAtLeast least :=
  bind takesFirst fun _ _ _ _ => Nat.zero_le _

theorem bind_right {first : Pattern α} {second : α → Pattern β} {least : Nat}
    (takesSecond : ∀ value, (second value).TakesAtLeast least) :
    (first >>= second).TakesAtLeast least := by
  intro text piece found
  obtain ⟨start, rest, _, foundRest, rfl⟩ := read_bind_eq_some_iff.mp found
  have upper := takesSecond start.value start.ahead rest foundRest
  simp only [List.length_append]
  omega

theorem orElse {first second : Pattern α} {least : Nat}
    (takesFirst : first.TakesAtLeast least)
    (takesSecond : second.TakesAtLeast least) :
    (first <|> second).TakesAtLeast least := by
  intro text piece found
  rcases read_orElse_eq_some_iff.mp found with foundFirst | ⟨_, foundSecond⟩
  · exact takesFirst text piece foundFirst
  · exact takesSecond text piece foundSecond

theorem one (belongs : Char → Bool) : (one belongs).TakesAtLeast 1 := by
  intro text piece found
  obtain ⟨character, ahead, rfl, _, rfl⟩ := read_one_eq_some_iff.mp found
  exact Nat.le_refl 1

theorem symbol (character : Char) : (symbol character).TakesAtLeast 1 := by
  intro text piece found
  obtain ⟨ahead, rfl, rfl⟩ := read_symbol_eq_some_iff.mp found
  exact Nat.le_refl 1

theorem keyword (word : Text) : (keyword word).TakesAtLeast word.length := by
  intro text piece found
  obtain ⟨spelling, ahead, rfl, rfl, rfl⟩ := read_keyword_eq_some_iff.mp found
  simp

end TakesAtLeast

end CleanSvg.Pattern
