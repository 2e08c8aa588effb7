import CleanSvg.Proofs.Markup.JoinedTexts

/-!
# What joining keeps

Content can be met symbol by symbol: the characters of its texts, and the
beginnings and ends of its elements.  The symbols show everything but where one
text ends and the next begins.  Joining keeps all symbols and leaves texts that
are neither empty nor side by side, and no other content has both.
-/

namespace CleanSvg

/-- A character of a text, or where an element begins or ends. -/
inductive Symbol
  | character (character : Char)
  | opening (name : Text) (attributes : List Attribute)
  | closing
deriving DecidableEq, Repr

namespace Content

/-- The symbols of content, from its beginning to its end. -/
def symbols : Content → List Symbol
  | .empty => []
  | .text characters after => characters.map .character ++ after.symbols
  | .element name attributes inner after =>
      .opening name attributes :: (inner.symbols ++ .closing :: after.symbols)

/-- No text is empty and none stands beside another, at every depth. -/
def Separated : Content → Prop
  | .empty => True
  | .text characters after =>
      characters ≠ [] ∧ (∀ more rest, after ≠ .text more rest) ∧ after.Separated
  | .element _ _ inner after => inner.Separated ∧ after.Separated

end Content

def Element.symbols (element : Element) : List Symbol :=
  .opening element.name element.attributes :: (element.content.symbols ++ [.closing])

def Element.Separated (element : Element) : Prop :=
  element.content.Separated

namespace Content

theorem symbols_prependText (characters : Text) (content : Content) :
    (content.prependText characters).symbols =
      characters.map .character ++ content.symbols := by
  cases content with
  | text more after => simp [prependText, symbols]
  | empty | element =>
      cases characters with
      | nil => rfl
      | cons character characters => rfl

theorem symbols_joined (content : Content) : content.joined.symbols = content.symbols := by
  induction content with
  | empty => rfl
  | text characters after induction => rw [joined, symbols_prependText, induction, symbols]
  | element name attributes inner after inside behind =>
      rw [joined, symbols, symbols, inside, behind]

theorem Separated.prependText
    {content : Content} (separated : content.Separated) (characters : Text) :
    (content.prependText characters).Separated := by
  cases content with
  | text more after =>
      obtain ⟨nonempty, apart, behind⟩ := separated
      exact ⟨List.append_ne_nil_of_right_ne_nil characters nonempty, apart, behind⟩
  | empty | element =>
      cases characters with
      | nil => exact separated
      | cons character characters => exact ⟨List.cons_ne_nil _ _, nofun, separated⟩

theorem separated_joined (content : Content) : content.joined.Separated := by
  induction content with
  | empty => trivial
  | text characters after induction => exact induction.prependText characters
  | element name attributes inner after inside behind => exact ⟨inside, behind⟩

/-- Symbols that do not go on with a text. -/
def TextEnds (symbols : List Symbol) : Prop :=
  ∀ character others, symbols ≠ .character character :: others

/-- Symbols that do not go on with more content. -/
def ContentEnds (symbols : List Symbol) : Prop :=
  symbols = [] ∨ ∃ others, symbols = .closing :: others

theorem contentEnds_closing (others : List Symbol) : ContentEnds (.closing :: others) :=
  Or.inr ⟨others, rfl⟩

theorem ContentEnds.textEnds {rest : List Symbol} (ends : ContentEnds rest) : TextEnds rest := by
  rcases ends with rfl | ⟨others, rfl⟩ <;> exact nofun

theorem ContentEnds.ne_opening
    {rest : List Symbol} (ends : ContentEnds rest) (name : Text) (attributes : List Attribute)
    (others : List Symbol) : rest ≠ .opening name attributes :: others := by
  rcases ends with rfl | ⟨others, rfl⟩ <;> exact nofun

theorem textEnds_after
    {content : Content} (apart : ∀ more rest, content ≠ .text more rest)
    {others : List Symbol} (ends : TextEnds others) : TextEnds (content.symbols ++ others) := by
  cases content with
  | empty => exact ends
  | text more rest => exact absurd rfl (apart more rest)
  | element => exact nofun

theorem characters_eq_of_symbols_eq
    {left right : Text} {leftRest rightRest : List Symbol}
    (leftEnds : TextEnds leftRest) (rightEnds : TextEnds rightRest)
    (same : left.map .character ++ leftRest = right.map .character ++ rightRest) :
    left = right ∧ leftRest = rightRest := by
  induction left generalizing right with
  | nil =>
      cases right with
      | nil => exact ⟨rfl, same⟩
      | cons character right => exact absurd same (leftEnds character _)
  | cons character left induction =>
      cases right with
      | nil => exact absurd same.symm (rightEnds character _)
      | cons other right =>
          simp only [List.map_cons, List.cons_append, List.cons.injEq,
            Symbol.character.injEq] at same
          obtain ⟨equal, rest⟩ := induction same.2
          exact ⟨by rw [same.1, equal], rest⟩

/-- Separated content is told by its symbols from all other, where nothing more comes or an
element ends. -/
theorem eq_of_symbols_append_eq
    {left right : Content} (leftSeparated : left.Separated) (rightSeparated : right.Separated)
    {leftRest rightRest : List Symbol}
    (leftEnds : ContentEnds leftRest) (rightEnds : ContentEnds rightRest)
    (same : left.symbols ++ leftRest = right.symbols ++ rightRest) :
    left = right ∧ leftRest = rightRest := by
  -- what follows is part of the induction: inside an element it is the end of the element
  induction left generalizing right leftRest rightRest with
  | empty =>
      cases right with
      | empty => exact ⟨rfl, same⟩
      | text characters after =>
          cases characters with
          | nil => exact absurd rfl rightSeparated.1
          | cons character characters => exact absurd same (leftEnds.textEnds character _)
      | element name attributes inner after =>
          exact absurd same (leftEnds.ne_opening name attributes _)
  | text characters after induction =>
      obtain ⟨nonempty, apart, behind⟩ := leftSeparated
      cases right with
      | empty =>
          cases characters with
          | nil => exact absurd rfl nonempty
          | cons character characters =>
              exact absurd same.symm (rightEnds.textEnds character _)
      | text more rest =>
          obtain ⟨_, apartRight, behindRight⟩ := rightSeparated
          simp only [symbols, List.append_assoc] at same
          obtain ⟨rfl, sameRest⟩ := characters_eq_of_symbols_eq
            (textEnds_after apart leftEnds.textEnds)
            (textEnds_after apartRight rightEnds.textEnds) same
          obtain ⟨rfl, rests⟩ := induction behind behindRight leftEnds rightEnds sameRest
          exact ⟨rfl, rests⟩
      | element name attributes inner rest =>
          cases characters with
          | nil => exact absurd rfl nonempty
          | cons character characters => cases same
  | element name attributes inner after inside behind =>
      cases right with
      | empty => exact absurd same.symm (rightEnds.ne_opening name attributes _)
      | text characters rest =>
          cases characters with
          | nil => exact absurd rfl rightSeparated.1
          | cons character characters => cases same
      | element otherName otherAttributes otherInner otherAfter =>
          simp only [symbols, List.cons_append, List.cons.injEq, Symbol.opening.injEq,
            List.append_assoc] at same
          obtain ⟨⟨rfl, rfl⟩, same⟩ := same
          obtain ⟨rfl, sameRest⟩ := inside leftSeparated.1 rightSeparated.1
            (contentEnds_closing _) (contentEnds_closing _) same
          obtain ⟨rfl, rests⟩ := behind leftSeparated.2 rightSeparated.2 leftEnds rightEnds
            (List.cons.inj sameRest).2
          exact ⟨rfl, rests⟩

end Content

namespace Element

/-- The joined form of an element is the one with the same symbols in which no text is empty
or stands beside another. -/
theorem eq_joined_iff {element other : Element} :
    other = element.joined ↔ other.Separated ∧ other.symbols = element.symbols := by
  constructor
  · rintro rfl
    refine ⟨Content.separated_joined element.content, ?_⟩
    rw [symbols, symbols, joined, Content.symbols_joined]
  · rintro ⟨separated, same⟩
    rw [symbols, symbols, List.cons.injEq, Symbol.opening.injEq] at same
    obtain ⟨⟨sameName, sameAttributes⟩, sameContent⟩ := same
    rw [← Content.symbols_joined element.content] at sameContent
    obtain ⟨content, _⟩ := Content.eq_of_symbols_append_eq separated
      (Content.separated_joined element.content) (Content.contentEnds_closing [])
      (Content.contentEnds_closing []) sameContent
    obtain ⟨name, attributes, inner⟩ := other
    simp only at sameName sameAttributes content
    rw [joined, sameName, sameAttributes, content]

end Element

end CleanSvg
