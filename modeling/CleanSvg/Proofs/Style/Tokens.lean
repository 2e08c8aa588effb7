import CleanSvg.Proofs.Pattern.Beginnings
import CleanSvg.Style.Rules

/-!
# The shape of style tokens

What the patterns for openings and `url` tokens have read, spelled out as a
division of the text: the spelling of a name, white space, a parenthesis, and
for a `url` token a quote, its payload and what closes it.
-/

namespace CleanSvg.Style

theorem dropWhile_isBlank_eq
    {blanks ahead : Text} {next : Char}
    (allBlank : ∀ character ∈ blanks, Text.isBlank character = true)
    (visible : Text.isBlank next = false) :
    (blanks ++ next :: ahead).takeWhile Text.isBlank = blanks ∧
      (blanks ++ next :: ahead).dropWhile Text.isBlank = next :: ahead := by
  constructor
  · rw [List.takeWhile_append_of_pos allBlank]
    simp [visible]
  · rw [List.dropWhile_append_of_pos allBlank]
    simp [visible]

theorem callOpening_read_iff
    {name text : Text} {opening : Piece Unit} :
    (callOpening name).read text = some opening ↔
      ∃ spelling blanks ahead, spelling.map Text.foldCase = name ∧
        (∀ character ∈ blanks, Text.isBlank character = true) ∧
          text = spelling ++ blanks ++ '(' :: ahead ∧
            opening = ⟨(), spelling ++ blanks ++ ['('], ahead⟩ := by
  constructor
  · intro read
    obtain ⟨start, rest, foundName, foundRest, rfl⟩ :=
      Pattern.read_bind_eq_some_iff.mp read
    obtain ⟨spelling, behind, folded, rfl, rfl⟩ :=
      Pattern.read_keyword_eq_some_iff.mp foundName
    obtain ⟨blanks, parenthesis, foundBlanks, foundParenthesis, rfl⟩ :=
      Pattern.read_bind_eq_some_iff.mp foundRest
    rw [Pattern.read_blanks] at foundBlanks
    cases foundBlanks
    obtain ⟨ahead, begins, rfl⟩ :=
      Pattern.read_symbol_eq_some_iff.mp foundParenthesis
    refine ⟨spelling, behind.takeWhile Text.isBlank, ahead, folded, ?_, ?_, ?_⟩
    · exact fun character member => List.all_eq_true.mp List.all_takeWhile character member
    · rw [List.append_assoc, ← begins, List.takeWhile_append_dropWhile]
    · simp
  · rintro ⟨spelling, blanks, ahead, folded, allBlank, rfl, rfl⟩
    have visible : Text.isBlank '(' = false := by decide
    obtain ⟨taken, dropped⟩ := @dropWhile_isBlank_eq blanks ahead '(' allBlank visible
    refine Pattern.read_bind_eq_some_iff.mpr
      ⟨⟨(), spelling, blanks ++ '(' :: ahead⟩, ⟨(), blanks ++ ['('], ahead⟩,
        ?_, ?_, ?_⟩
    · exact Pattern.read_keyword_eq_some_iff.mpr
        ⟨spelling, blanks ++ '(' :: ahead, folded, by simp, rfl⟩
    · refine Pattern.read_bind_eq_some_iff.mpr
        ⟨⟨(), blanks, '(' :: ahead⟩, ⟨(), ['('], ahead⟩, ?_, ?_, rfl⟩
      · rw [Pattern.read_blanks, taken, dropped]
      · exact Pattern.read_symbol_eq_some_iff.mpr ⟨ahead, rfl, rfl⟩
    · simp

theorem closedCall_refuses
    {sign letter : Char} {name : Text} (differs : Text.foldCase sign ≠ letter) :
    (closedCall (letter :: name)).Refuses sign :=
  .bind_left (.bind_left (.keyword differs))

theorem callOpening_read_append
    {name text : Text} {opening : Piece Unit}
    (read : (callOpening name).read text = some opening) (ahead : Text) :
    (callOpening name).read (opening.taken ++ ahead) =
      some ⟨(), opening.taken, ahead⟩ := by
  obtain ⟨spelling, blanks, _, folded, allBlank, _, rfl⟩ :=
    callOpening_read_iff.mp read
  exact callOpening_read_iff.mpr ⟨spelling, blanks, ahead, folded, allBlank, by simp, rfl⟩

/-- An opening takes no visible sign, unless it is a parenthesis or stands in its name. -/
theorem not_mem_callOpening
    {name text : Text} {opening : Piece Unit} {sign : Char}
    (read : (callOpening name).read text = some opening) (foreign : Text.foldCase sign ∉ name)
    (visible : Text.isBlank sign = false) (noParenthesis : sign ≠ '(') :
    sign ∉ opening.taken := by
  obtain ⟨spelling, blanks, _, folded, allBlank, _, rfl⟩ :=
    callOpening_read_iff.mp read
  intro member
  rcases List.mem_append.mp member with earlier | last
  · rcases List.mem_append.mp earlier with inSpelling | inBlanks
    · rw [← folded] at foreign
      exact foreign (List.mem_map_of_mem inSpelling)
    · rw [allBlank sign inBlanks] at visible
      cases visible
  · exact noParenthesis (List.mem_singleton.mp last)

theorem parenthesis_not_mem_callOpening
    {name text : Text} {opening : Piece Unit}
    (read : (callOpening name).read text = some opening) (foreign : ')' ∉ name) :
    ')' ∉ opening.taken :=
  not_mem_callOpening read foreign (by decide) (by decide)

/-- Whether a piece ends with a closing parenthesis or with the text. -/
def EndsCall {α : Type} (piece : Piece α) : Prop :=
  piece.ahead = [] ∨ ∃ front, piece.taken = front ++ [')']

theorem urlClosing_read
    {text : Text} {closing : Piece Unit} (read : urlClosing.read text = some closing) :
    EndsCall closing := by
  obtain ⟨blanks, last, _, foundLast, rfl⟩ := Pattern.read_bind_eq_some_iff.mp read
  rcases Pattern.read_orElse_eq_some_iff.mp foundLast with closed | ⟨_, ended⟩
  · obtain ⟨ahead, _, rfl⟩ := Pattern.read_symbol_eq_some_iff.mp closed
    exact Or.inr ⟨blanks.taken, rfl⟩
  · obtain ⟨_, rfl⟩ := Pattern.read_atEnd_eq_some_iff.mp ended
    exact Or.inl rfl

/-- The parts of a payload that was read: its quotes, if any, and what closes it. -/
def SplitsPayload (quote : Text) (ahead : Text) (payload : Piece Text) : Prop :=
  ∃ closing, payload.taken = quote ++ payload.value ++ closing ∧
    ahead = quote ++ payload.value ++ closing ++ payload.ahead ∧
      (payload.ahead = [] ∨ ∃ front, closing = front ++ [')'])

theorem quotedPayload_read
    {quote : Char} {text : Text} {payload : Piece Text}
    (read : (quotedPayload quote).read text = some payload) :
    SplitsPayload [quote] text payload := by
  have split := (quotedPayload quote).splits read
  obtain ⟨opened, body, foundQuote, foundBody, rfl⟩ :=
    Pattern.read_bind_eq_some_iff.mp read
  obtain ⟨ahead, rfl, rfl⟩ := Pattern.read_symbol_eq_some_iff.mp foundQuote
  obtain ⟨rest, last, _, foundLast, taken, left⟩ := Pattern.read_through foundBody
  obtain ⟨closingQuote, closing, foundClosingQuote, foundClosing, rfl⟩ :=
    Pattern.read_bind_eq_some_iff.mp foundLast
  obtain ⟨behind, rfl, rfl⟩ := Pattern.read_symbol_eq_some_iff.mp foundClosingQuote
  refine ⟨quote :: closing.taken, ?_, ?_, ?_⟩
  · simp [taken]
  · rw [← split]
    simp [taken]
  · rcases urlClosing_read foundClosing with ended | ⟨front, closed⟩
    · exact Or.inl (left.trans ended)
    · exact Or.inr ⟨quote :: front, by simp [closed]⟩

theorem unquotedPayload_read
    {text : Text} {payload : Piece Text}
    (read : (Pattern.through urlClosing).read text = some payload) :
    SplitsPayload [] text payload := by
  have split := (Pattern.through urlClosing).splits read
  obtain ⟨rest, last, _, foundLast, taken, left⟩ := Pattern.read_through read
  refine ⟨last.taken, taken, ?_, ?_⟩
  · rw [← split, taken, List.nil_append]
  · rcases urlClosing_read foundLast with ended | closed
    · exact Or.inl (left.trans ended)
    · exact Or.inr closed

/-- A `url` token is an opening, white space and a payload with or without quotes. -/
theorem urlToken_read
    {text : Text} {token : Piece Text} (read : urlToken.read text = some token) :
    ∃ opening payload quote, urlOpening.read text = some opening ∧
      token = ⟨payload.value,
        opening.taken ++ (opening.ahead.takeWhile Text.isBlank ++ payload.taken),
        payload.ahead⟩ ∧
      (quote = [] ∨ quote = ['"'] ∨ quote = ['\'']) ∧
        SplitsPayload quote (opening.ahead.dropWhile Text.isBlank) payload := by
  obtain ⟨opening, rest, foundOpening, foundRest, rfl⟩ :=
    Pattern.read_bind_eq_some_iff.mp read
  obtain ⟨blanks, payload, foundBlanks, foundPayload, rfl⟩ :=
    Pattern.read_bind_eq_some_iff.mp foundRest
  rw [Pattern.read_blanks] at foundBlanks
  cases foundBlanks
  have payloadRead : ∃ quote, (quote = [] ∨ quote = ['"'] ∨ quote = ['\'']) ∧
      SplitsPayload quote (opening.ahead.dropWhile Text.isBlank) payload := by
    rcases Pattern.read_orElse_eq_some_iff.mp foundPayload with double | ⟨_, other⟩
    · exact ⟨['"'], by simp, quotedPayload_read double⟩
    · rcases Pattern.read_orElse_eq_some_iff.mp other with single | ⟨_, bare⟩
      · exact ⟨['\''], by simp, quotedPayload_read single⟩
      · exact ⟨[], by simp, unquotedPayload_read bare⟩
  obtain ⟨quote, quotes, splits⟩ := payloadRead
  exact ⟨opening, payload, quote, foundOpening, rfl, quotes, splits⟩

/-- Wherever a `url` token is opened, one is read: the end of the text closes it at
the latest. -/
theorem urlToken_read_of_opening
    {text : Text} {opening : Piece Unit} (opens : urlOpening.read text = some opening) :
    ∃ token, urlToken.read text = some token := by
  have bare : ∀ ahead, ∃ payload,
      (Pattern.through urlClosing).read ahead = some payload := by
    intro ahead
    exact Option.isSome_iff_exists.mp
      (Pattern.read_through_isSome (by decide) ahead)
  have payloadRead : ∀ ahead, ∃ payload,
      (quotedPayload '"' <|> quotedPayload '\'' <|>
        Pattern.through urlClosing).read ahead = some payload := by
    intro ahead
    obtain ⟨payload, read⟩ := bare ahead
    rw [Pattern.read_orElse, Pattern.read_orElse, read]
    cases (quotedPayload '"').read ahead <;>
      cases (quotedPayload '\'').read ahead <;> simp
  obtain ⟨payload, foundPayload⟩ := payloadRead (opening.ahead.dropWhile Text.isBlank)
  exact ⟨_, Pattern.read_bind_eq_some_iff.mpr ⟨opening, _, opens,
    Pattern.read_bind_eq_some_iff.mpr ⟨_, payload, Pattern.read_blanks _,
      foundPayload, rfl⟩, rfl⟩⟩

end CleanSvg.Style
