import CleanSvg.Proofs.Style.NormalForm

/-!
# Spellings of style text

Escapes and comments give every style text many spellings.  Normalization
brings all of them back to the text itself: decoding leaves the text with
comments between its characters, and dropping the comments leaves the text.
A pass looks at normalized text only, so no spelling hides anything from it.
-/

namespace CleanSvg.Style

/-- The ways to write one character. -/
inductive Spells (character : Char) : Text → Prop where
  | itself : Spells character [character]
  | codePoint {digits : Text} {blank : Char}
      (nonempty : digits ≠ []) (few : digits.length ≤ 6)
      (hexadecimal : ∀ digit ∈ digits, isHexDigit digit = true)
      (value : hexValue digits = character.toNat)
      (nonzero : character.toNat ≠ 0)
      (ended : Text.isBlank blank = true) :
      Spells character ('\\' :: digits ++ [blank])
  | literal (noDigit : isHexDigit character = false) (noLineFeed : character ≠ '\n') :
      Spells character ['\\', character]

/-- A text whose characters are written in given ways, with comments between them. -/
inductive Commented (spells : Char → Text → Prop) : Text → Text → Prop where
  | empty : Commented spells [] []
  | comment {body css written : Text}
      (noBackslash : '\\' ∉ body) (notClosed : ¬ "*/".toList <:+: body)
      (others : Commented spells css written) :
      Commented spells css ("/*".toList ++ body ++ "*/".toList ++ written)
  | character {character : Char} {spelling css written : Text}
      (spelled : spells character spelling)
      (others : Commented spells css written) :
      Commented spells (character :: css) (spelling ++ written)

def Plainly (character : Char) (spelling : Text) : Prop :=
  spelling = [character]

theorem bounds_of_isHexDigit {character : Char} (digit : isHexDigit character = true) :
    '0' ≤ character ∧ character ≤ 'f' := by
  rw [isHexDigit, hexDigit?] at digit
  split at digit
  · rename_i decimal
    exact ⟨decimal.1, Char.le_trans decimal.2 (by decide)⟩
  · split at digit
    · rename_i small
      exact ⟨Char.le_trans (by decide) small.1, small.2⟩
    · split at digit
      · rename_i capital
        exact ⟨Char.le_trans (by decide) capital.1, Char.le_trans capital.2 (by decide)⟩
      · cases digit

theorem isHexDigit_eq_false_of_isBlank
    {character : Char} (blank : Text.isBlank character = true) :
    isHexDigit character = false := by
  have apart : ∀ range ∈ CharacterSet.whiteSpace.ranges,
      range.2 < '0'.toNat ∨ 'f'.toNat < range.1 := by decide
  obtain ⟨range, member, above, below⟩ := CharacterSet.contains_iff.mp blank
  have outside := apart range member
  rw [← Bool.not_eq_true]
  intro digit
  obtain ⟨lower, upper⟩ := bounds_of_isHexDigit digit
  have lower' : '0'.toNat ≤ character.toNat := lower
  have upper' : character.toNat ≤ 'f'.toNat := upper
  omega

theorem escapedCharacter_toNat {character : Char} (nonzero : character.toNat ≠ 0) :
    escapedCharacter character.toNat = character := by
  rw [escapedCharacter, if_pos ⟨nonzero, character.valid⟩, Char.ofNat_toNat]

theorem escape_read_codePoint
    {digits : Text} {blank : Char} (nonempty : digits ≠ []) (few : digits.length ≤ 6)
    (hexadecimal : ∀ digit ∈ digits, isHexDigit digit = true)
    (ended : Text.isBlank blank = true) (ahead : Text) :
    escape.read ('\\' :: digits ++ blank :: ahead) =
      some ⟨escapedCharacter (hexValue digits), '\\' :: digits ++ [blank], ahead⟩ := by
  cases digits with
  | nil => exact absurd rfl nonempty
  | cons first others =>
      obtain ⟨firstDigit, otherDigits⟩ := List.forall_mem_cons.mp hexadecimal
      have fewOthers : others.length ≤ 5 := Nat.le_of_succ_le_succ few
      have foundSlash : (Pattern.symbol '\\').read
          ('\\' :: first :: others ++ blank :: ahead) =
            some ⟨(), ['\\'], first :: others ++ blank :: ahead⟩ :=
        Pattern.read_symbol_eq_some_iff.mpr ⟨_, rfl, rfl⟩
      have foundFirst : (Pattern.one isHexDigit).read (first :: others ++ blank :: ahead) =
          some ⟨first, [first], others ++ blank :: ahead⟩ :=
        Pattern.read_one_eq_some_iff.mpr ⟨first, _, rfl, firstDigit, rfl⟩
      have foundOthers := Pattern.read_runUpTo_append otherDigits fewOthers
        (isHexDigit_eq_false_of_isBlank ended) ahead
      have foundBlank : (Pattern.one Text.isBlank).read (blank :: ahead) =
          some ⟨blank, [blank], ahead⟩ :=
        Pattern.read_one_eq_some_iff.mpr ⟨blank, ahead, rfl, ended, rfl⟩
      rw [escape, Pattern.read_orElse, codePointEscape,
        Pattern.read_bind_of_some foundSlash, Pattern.read_bind_of_some foundFirst,
        Pattern.read_bind_of_some foundOthers,
        Pattern.read_bind_of_some (Pattern.read_optional_of_some foundBlank)]
      simp [pure, Pattern.nothing]

theorem escape_read_literal
    {character : Char} (noDigit : isHexDigit character = false)
    (noLineFeed : character ≠ '\n') (ahead : Text) :
    escape.read ('\\' :: character :: ahead) =
      some ⟨character, ['\\', character], ahead⟩ := by
  have foundSlash : (Pattern.symbol '\\').read ('\\' :: character :: ahead) =
      some ⟨(), ['\\'], character :: ahead⟩ :=
    Pattern.read_symbol_eq_some_iff.mpr ⟨_, rfl, rfl⟩
  have noCodePoint : codePointEscape.read ('\\' :: character :: ahead) = none := by
    rw [codePointEscape, Pattern.read_bind_of_some foundSlash, Option.map_eq_none_iff,
      Option.eq_none_iff_forall_not_mem]
    intro rest found
    obtain ⟨digit, _, foundDigit, _, _⟩ := Pattern.read_bind_eq_some_iff.mp found
    obtain ⟨_, _, begins, member, _⟩ := Pattern.read_one_eq_some_iff.mp foundDigit
    rw [← (List.cons.inj begins).1, noDigit] at member
    cases member
  have foundSign : (Pattern.one fun sign => sign != '\n').read (character :: ahead) =
      some ⟨character, [character], ahead⟩ :=
    Pattern.read_one_eq_some_iff.mpr
      ⟨character, ahead, rfl, bne_iff_ne.mpr noLineFeed, rfl⟩
  rw [escape, Pattern.read_orElse, noCodePoint, literalEscape,
    Pattern.read_bind_of_some foundSlash, foundSign]
  rfl

theorem decodeEscapes_of_read
    {text : Text} {piece : Piece Char} (read : escape.read text = some piece) :
    decodeEscapes text = piece.value :: decodeEscapes piece.ahead := by
  apply Pattern.replaceAll_of_read read
  have long := escape_takesAtLeast text piece read
  exact List.ne_nil_of_length_pos (by omega)

theorem decodeEscapes_spelling
    {character : Char} {spelling : Text} (spelled : Spells character spelling)
    (noBackslash : character ≠ '\\') (ahead : Text) :
    decodeEscapes (spelling ++ ahead) = character :: decodeEscapes ahead := by
  cases spelled with
  | itself =>
      apply decodeEscapes_append_of_not_mem
      simpa using noBackslash.symm
  | @codePoint digits blank nonempty few hexadecimal value nonzero ended =>
      have read := escape_read_codePoint nonempty few hexadecimal ended ahead
      rw [value, escapedCharacter_toNat nonzero] at read
      simpa using decodeEscapes_of_read read
  | literal noDigit noLineFeed =>
      exact decodeEscapes_of_read (escape_read_literal noDigit noLineFeed ahead)

/-- Decoding undoes every spelling and leaves the comments where they are. -/
theorem Commented.decodeEscapes
    {css written : Text} (spelled : Commented Spells css written) (noBackslash : '\\' ∉ css) :
    Commented Plainly css (decodeEscapes written) := by
  induction spelled with
  | empty => simpa [Style.decodeEscapes] using Commented.empty
  | @comment body css written bodyNoBackslash notClosed others induction =>
      rw [List.append_assoc, List.append_assoc,
        decodeEscapes_append_of_not_mem (by decide),
        decodeEscapes_append_of_not_mem bodyNoBackslash,
        decodeEscapes_append_of_not_mem (by decide), ← List.append_assoc,
        ← List.append_assoc]
      exact .comment bodyNoBackslash notClosed (induction noBackslash)
  | @character character spelling css written spells others induction =>
      obtain ⟨differs, absent⟩ := List.ne_and_not_mem_of_not_mem_cons noBackslash
      rw [decodeEscapes_spelling spells differs.symm]
      exact Commented.character rfl (induction absent)

theorem Commented.noBackslash
    {css text : Text} (commented : Commented Plainly css text) (noBackslash : '\\' ∉ css) :
    '\\' ∉ text := by
  induction commented with
  | empty => exact noBackslash
  | comment bodyNoBackslash notClosed others induction =>
      simpa [bodyNoBackslash] using induction noBackslash
  | character plain others induction =>
      cases plain
      simp only [List.mem_cons, not_or] at noBackslash
      simpa [noBackslash.1] using induction noBackslash.2

theorem commentClosing_read_iff {text : Text} {piece : Piece Unit} :
    (Pattern.keyword "*/").read text = some piece ↔
      ∃ ahead, text = "*/".toList ++ ahead ∧ piece = ⟨(), "*/".toList, ahead⟩ :=
  read_signs_eq_some_iff (forall_mem_of_all (by decide))

/-- A closing mark that begins inside a text lies inside it, unless the text goes on
with a slash. -/
theorem commentClosing_refused
    {body inner : Text} (notClosed : ¬ "*/".toList <:+: body)
    (inside : inner <:+ body) (nonempty : inner ≠ []) (ahead : Text) :
    (Pattern.keyword "*/" <|> Pattern.atEnd).read (inner ++ '*' :: ahead) = none := by
  rw [Option.eq_none_iff_forall_not_mem]
  intro piece read
  rcases Pattern.read_orElse_eq_some_iff.mp read with closes | ⟨_, ends⟩
  · obtain ⟨rest, split, _⟩ := commentClosing_read_iff.mp closes
    match inner, nonempty with
    | [first], _ => simp at split
    | first :: second :: inner, _ =>
        obtain ⟨rfl, rfl, _⟩ : first = '*' ∧ second = '/' ∧ _ := by simpa using split
        exact notClosed (List.IsInfix.trans ⟨[], inner, rfl⟩ inside.isInfix)
  · have empty := (Pattern.read_atEnd_eq_some_iff.mp ends).1
    simp at empty

theorem comment_read_append
    {body : Text} (notClosed : ¬ "*/".toList <:+: body) (ahead : Text) :
    comment.read ("/*".toList ++ body ++ "*/".toList ++ ahead) =
      some ⟨body, "/*".toList ++ body ++ "*/".toList, ahead⟩ := by
  have opened : (Pattern.keyword "/*").read
      ("/*".toList ++ (body ++ ("*/".toList ++ ahead))) = _ :=
    commentOpening_read_iff.mpr ⟨_, rfl, rfl⟩
  have stops : (Pattern.keyword "*/" <|> Pattern.atEnd).read ("*/".toList ++ ahead) =
      some ⟨(), "*/".toList, ahead⟩ :=
    Pattern.read_orElse_eq_some_iff.mpr
      (Or.inl (commentClosing_read_iff.mpr ⟨ahead, rfl, rfl⟩))
  have early : ∀ inner, inner <:+ body → inner ≠ [] →
      (Pattern.keyword "*/" <|> Pattern.atEnd).read (inner ++ ("*/".toList ++ ahead)) =
        none := by
    intro inner inside nonempty
    exact commentClosing_refused notClosed inside nonempty ('/' :: ahead)
  have closed := Pattern.read_through_of_first early stops
  rw [List.append_assoc, List.append_assoc, comment, Pattern.read_bind_of_some opened,
    closed]
  simp

/-- Between the characters of a text there are only comments, which begin with a slash,
so a star at the beginning is the text's own. -/
theorem Commented.begins_of_star
    {css ahead : Text} (commented : Commented Plainly css ('*' :: ahead)) :
    ∃ rest, css = '*' :: rest := by
  generalize same : '*' :: ahead = text at commented
  cases commented with
  | empty => cases same
  | comment => cases same
  | character plain others =>
      cases plain
      cases same
      exact ⟨_, rfl⟩

theorem eraseAll_comment_eq
    {css text : Text} (commented : Commented Plainly css text)
    (noComment : ¬ "/*".toList <:+: css) : comment.eraseAll text = css := by
  induction commented with
  | empty => exact Pattern.replaceAll_nil comment _
  | comment noBackslash notClosed others induction =>
      rw [Pattern.eraseAll, Pattern.replaceAll_of_read
        (comment_read_append notClosed _) (by simp)]
      exact induction noComment
  | @character character spelling css text plain others induction =>
      cases plain
      have noCommentLater : ¬ "/*".toList <:+: css := by
        intro inside
        exact noComment (inside.trans (List.suffix_cons character css).isInfix)
      rw [← induction noCommentLater]
      apply Pattern.replaceAll_of_not_read
      intro piece read
      have opens : "/*".toList <+: character :: text :=
        comment_read_isSome_iff.mp (Option.isSome_of_mem read)
      obtain ⟨ahead, split⟩ := opens
      obtain ⟨rfl, rfl⟩ : '/' = character ∧ '*' :: ahead = text := by simpa using split
      obtain ⟨rest, rfl⟩ := others.begins_of_star
      exact absurd ⟨[], rest, rfl⟩ noComment

theorem normalize_spelling
    {css written : Text} (noBackslash : '\\' ∉ css) (noComment : ¬ "/*".toList <:+: css)
    (spelled : Commented Spells css written) : normalize written = css := by
  have decoded := spelled.decodeEscapes noBackslash
  have kept : dropBackslashes (decodeEscapes written) = decodeEscapes written :=
    dropBackslashes_eq_self_iff.mpr (decoded.noBackslash noBackslash)
  rw [normalize, ← dropBackslashes, kept]
  exact eraseAll_comment_eq decoded noComment

theorem Commented.plainly (css : Text) : Commented Spells css css := by
  induction css with
  | nil => exact .empty
  | cons character css induction => exact .character .itself induction

/-- No spelling of a text, by escapes and comments, changes what cleaning makes of it
or whether a `url` token is seen in it. -/
theorem clean_spelling
    {css written : Text} (noBackslash : '\\' ∉ css) (noComment : ¬ "/*".toList <:+: css)
    (spelled : Commented Spells css written) :
    clean written = clean css ∧ containsUrl written = containsUrl css := by
  have same : normalize written = normalize css := by
    rw [normalize_spelling noBackslash noComment spelled,
      normalize_spelling noBackslash noComment (Commented.plainly css)]
  constructor
  · rw [clean, clean, settled?, settled?, cleanOnce, cleanOnce, same]
  · rw [containsUrl, containsUrl, same]

/-- `url(//x)` with an escape by code point, an escape of a letter and two comments, of which
one stands between the two slashes. -/
def hiddenUrl : Text :=
  ['\\', '0', '0', '0', '0', '7', '5', ' ', 'r', '/', '*', '"', '*', '/', '\\', 'l', '(', '/',
    '/', '*', '/', '*', '/', '/', 'x', ')']

theorem hiddenUrl_seen : clean hiddenUrl = [] ∧ containsUrl hiddenUrl = true := by
  have behindComment : Commented Spells ['/', 'x', ')']
      ['/', '*', '/', '*', '/', '/', 'x', ')'] :=
    @Commented.comment Spells ['/'] _ _ (by decide) (by decide) (.plainly _)
  have behindEscape : Commented Spells ['l', '(', '/', '/', 'x', ')']
      ['\\', 'l', '(', '/', '/', '*', '/', '*', '/', '/', 'x', ')'] :=
    .character (.literal (by decide) (by decide))
      (.character .itself (.character .itself behindComment))
  have behindCode : Commented Spells ['r', 'l', '(', '/', '/', 'x', ')'] _ :=
    .character .itself
      (@Commented.comment Spells ['"'] _ _ (by decide) (by decide) behindEscape)
  have spelled : Commented Spells ['u', 'r', 'l', '(', '/', '/', 'x', ')'] hiddenUrl :=
    .character (@Spells.codePoint 'u' ['0', '0', '0', '0', '7', '5'] ' ' (by decide)
      (by decide) (forall_mem_of_all (by decide)) (by decide) (by decide) (by decide))
      behindCode
  obtain ⟨cleaned, seen⟩ := clean_spelling (by decide) (by decide) spelled
  rw [cleaned, seen]
  decide +kernel

end CleanSvg.Style
