import CleanSvg.Markup.Element
import CleanSvg.Markup.Reference

/-!
# The inside of a start tag

A start tag holds a name and then attributes, each with a value in quotes.  A
name ends at white space or an equals sign and may hold anything else.  No name
may come twice, and names that differ only in the case of ASCII letters count
as one.
-/

namespace CleanSvg.Tag

/-- Whether a character is white space of markup. -/
def isSpace (character : Char) : Bool :=
  character == ' ' || character == '\t' || character == '\n' || character == '\r'

def continuesName (character : Char) : Bool :=
  character != '=' && !isSpace character

/-- The name of an element: what stands before the first white space. -/
def elementName (inside : Text) : Text :=
  inside.takeWhile fun character => !isSpace character

/-- An attribute as it was read: `place` is what lies ahead where its name begins. -/
structure RawAttribute where
  name : Text
  place : Text
  value : Text

/-- The position, in a tag, of the place where `ahead` is left. -/
def position (inside ahead : Text) : Nat :=
  Text.byteSize inside - Text.byteSize ahead

/-- Reads the value of an attribute, and what lies ahead of it. -/
def readValue (inside ahead : Text) : Except AttributeError (Text × Text) :=
  match ahead.dropWhile isSpace with
  | [] => .error (.expectedValue (Text.byteSize inside))
  | quote :: body =>
      if quote = '"' ∨ quote = '\'' then
        match body.dropWhile (· != quote) with
        | [] => .error (.expectedQuote (Text.byteSize inside) quote)
        | _ :: rest => .ok (body.takeWhile (· != quote), rest)
      else .error (.unquotedValue (position inside (quote :: body)))

/-- Reads the next attribute of a tag, and what lies ahead of it.  The first character of a
name is taken as it is. -/
def nextAttribute? (inside : Text) (earlier : List RawAttribute) (ahead : Text) :
    Except AttributeError (Option (RawAttribute × Text)) :=
  match ahead.dropWhile isSpace with
  | [] => .ok none
  | first :: others =>
      let place := first :: others
      let name := first :: others.takeWhile continuesName
      match (others.dropWhile continuesName).dropWhile isSpace with
      | '=' :: afterEquals =>
          match earlier.find? fun candidate => candidate.name == name with
          | some previous =>
              .error (.duplicated (position inside place) (position inside previous.place))
          | none => do
              let (value, rest) ← readValue inside afterEquals
              .ok (some (⟨name, place, value⟩, rest))
      | rest => .error (.expectedEquals (position inside rest))

theorem readValue_length {inside ahead value rest : Text}
    (read : readValue inside ahead = .ok (value, rest)) : rest.length < ahead.length := by
  unfold readValue at read
  split at read
  · cases read
  · rename_i quote body opened
    split at read
    · split at read
      · cases read
      · rename_i closing rest closed
        cases read
        have outer := (List.dropWhile_suffix (l := ahead) isSpace).length_le
        have inner := (List.dropWhile_suffix (l := body) (· != quote)).length_le
        simp only [opened, closed, List.length_cons] at outer inner
        omega
    · cases read

theorem nextAttribute?_length {inside ahead rest : Text} {earlier : List RawAttribute}
    {raw : RawAttribute}
    (read : nextAttribute? inside earlier ahead = .ok (some (raw, rest))) :
    rest.length < ahead.length := by
  unfold nextAttribute? at read
  split at read
  · cases read
  · rename_i first others begun
    simp only at read
    split at read
    · rename_i afterEquals found
      split at read
      · cases read
      · cases valueRead : readValue inside afterEquals with
        | error cause =>
            rw [valueRead] at read
            cases read
        | ok result =>
            obtain ⟨value, left⟩ := result
            rw [valueRead] at read
            cases read
            have shorter := readValue_length valueRead
            have outer := (List.dropWhile_suffix (l := ahead) isSpace).length_le
            have middle := (List.dropWhile_suffix (l := others) continuesName).length_le
            have inner :=
              (List.dropWhile_suffix (l := others.dropWhile continuesName) isSpace).length_le
            simp only [begun, found, List.length_cons] at outer inner
            show left.length < ahead.length
            omega
    · cases read

/-- Reads the attributes that lie ahead, after `earlier` ones, the last of them first. -/
def attributesFrom (inside : Text) (earlier : List RawAttribute) (ahead : Text) :
    Except ParseError (List Attribute) :=
  match _ : nextAttribute? inside earlier ahead with
  | .error cause => .error (.malformedAttribute cause)
  | .ok none => .ok []
  | .ok (some (raw, rest)) =>
      if earlier.any fun candidate => Text.equalsIgnoringAsciiCase candidate.name raw.name then
        .error (.duplicateAttribute raw.name)
      else do
        let value ← (Reference.unescape raw.value).mapError .malformedReference
        let others ← attributesFrom inside (raw :: earlier) rest
        .ok (⟨raw.name, value⟩ :: others)
termination_by ahead.length
decreasing_by
  rename_i read _
  exact nextAttribute?_length read

def attributes (inside : Text) : Except ParseError (List Attribute) :=
  attributesFrom inside [] (inside.dropWhile fun character => !isSpace character)

/-- The element that a tag opens, with nothing inside yet. -/
def element (inside : Text) : Except ParseError Element := do
  let read ← attributes inside
  .ok ⟨elementName inside, read, .empty⟩

end CleanSvg.Tag
