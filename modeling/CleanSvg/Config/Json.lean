import CleanSvg.Style.Escape
import CleanSvg.Text.Pattern

/-!
# JSON texts

Configuration is written in JSON.  Strings and numbers keep their spelling, for
most members of a configuration are passed over: only the names and the few
values that are used have to mean something.
-/

namespace CleanSvg

/-- A JSON value; strings and numbers as they are spelled, without quotes. -/
inductive JsonValue
  | null
  | boolean (value : Bool)
  | number (spelling : Text)
  | string (spelling : Text)
  | array (members : List JsonValue)
  | object (fields : List (Text × JsonValue))

namespace JsonValue

def spaces : Pattern Unit := do
  let _ ← Pattern.run fun character =>
    character == ' ' || character == '\n' || character == '\t' || character == '\r'

def isDigit (character : Char) : Bool :=
  '0' ≤ character && character ≤ '9'

/-- One digit or more. -/
def digits : Pattern Unit := do
  let _ ← Pattern.one isDigit
  let _ ← Pattern.run isDigit

/-- The whole part of a number, which has no needless zero. -/
def wholePart : Pattern Unit :=
  Pattern.symbol '0' <|> do
    let _ ← Pattern.one fun character => isDigit character && character != '0'
    let _ ← Pattern.run isDigit

def fraction : Pattern Unit := do
  Pattern.symbol '.'
  digits

def exponent : Pattern Unit := do
  Pattern.symbol 'e' <|> Pattern.symbol 'E'
  Pattern.optional (Pattern.symbol '+' <|> Pattern.symbol '-')
  digits

def numberSpelling : Pattern Text :=
  Pattern.spelling do
    Pattern.optional (Pattern.symbol '-')
    wholePart
    Pattern.optional fraction
    Pattern.optional exponent

/-- Whether a character stands for itself in a string. -/
def isPlain (character : Char) : Bool :=
  character != '"' && character != '\\' && ' ' ≤ character

def escape : Pattern Unit := do
  Pattern.symbol '\\'
  let byLetter : Pattern Unit := do
    let _ ← Pattern.one fun character => "\"\\/bfnrt".toList.contains character
  let hexDigit := Pattern.one Style.isHexDigit
  byLetter <|> do
    Pattern.symbol 'u'
    let _ ← hexDigit
    let _ ← hexDigit
    let _ ← hexDigit
    let _ ← hexDigit

/-- The spelling of a string, between its quotes. -/
def stringSpelling : Pattern Text := do
  let plain : Pattern Unit := do
    let _ ← Pattern.one isPlain
    let _ ← Pattern.run isPlain
  Pattern.symbol '"'
  let spelling ← Pattern.spelling (Pattern.many (plain <|> escape))
  Pattern.symbol '"'
  pure spelling

/-- Members with commas between them, through a closing bracket. -/
def membersThrough {α : Type} (closing : Char) (member : Pattern α) : Pattern (List α) := do
  let following : Pattern α := do
    Pattern.symbol ','
    spaces
    member
  let filled : Pattern (List α) := do
    let first ← member
    let others ← Pattern.many following
    pure (first :: others)
  spaces
  let members ← filled <|> pure []
  Pattern.symbol closing
  pure members

def field (value : Pattern JsonValue) : Pattern (Text × JsonValue) := do
  let name ← stringSpelling
  spaces
  Pattern.symbol ':'
  spaces
  let member ← value
  pure (name, member)

/-- A value that is at most `depth` brackets deep, and the white space after it. -/
def value : Nat → Pattern JsonValue
  | 0 => Pattern.never
  | depth + 1 => do
      let read ←
        (do Pattern.literal "null"; pure JsonValue.null) <|>
        (do Pattern.literal "true"; pure (JsonValue.boolean true)) <|>
        (do Pattern.literal "false"; pure (JsonValue.boolean false)) <|>
        (do let spelling ← numberSpelling; pure (JsonValue.number spelling)) <|>
        (do let spelling ← stringSpelling; pure (JsonValue.string spelling)) <|>
        (do
          Pattern.symbol '['
          let members ← membersThrough ']' (value depth)
          pure (JsonValue.array members)) <|>
        (do
          Pattern.symbol '\x7b'
          let fields ← membersThrough '\x7d' (field (value depth))
          pure (JsonValue.object fields))
      spaces
      pure read

/-- Reads a text that is one JSON value.  No value is deeper than its text is long. -/
def ofText? (text : Text) : Option JsonValue :=
  let document : Pattern JsonValue := do
    spaces
    let read ← value (text.length + 1)
    Pattern.atEnd
    pure read
  (document.read text).map Piece.value

/-- Whether a number is the first half of a character written as a pair. -/
def isHighHalf (code : Nat) : Bool :=
  0xD800 ≤ code && code < 0xDC00

/-- Whether a number is the second half of a character written as a pair. -/
def isLowHalf (code : Nat) : Bool :=
  0xDC00 ≤ code && code < 0xE000

/-- The text that a string spells; `none` when half of a pair stands alone. -/
def decodeString? : Text → Option Text
  | [] => some []
  | '\\' :: 'u' :: a :: b :: c :: d :: '\\' :: 'u' :: e :: f :: g :: h :: ahead =>
      let code := Style.hexValue [a, b, c, d]
      let next := Style.hexValue [e, f, g, h]
      if isHighHalf code then
        if isLowHalf next then
          (decodeString? ahead).map
            (Char.ofNat (0x10000 + (code - 0xD800) * 0x400 + (next - 0xDC00)) :: ·)
        else none
      else if isLowHalf code then none
      else (decodeString? ('\\' :: 'u' :: e :: f :: g :: h :: ahead)).map (Char.ofNat code :: ·)
  | '\\' :: 'u' :: a :: b :: c :: d :: ahead =>
      let code := Style.hexValue [a, b, c, d]
      if isHighHalf code || isLowHalf code then none
      else (decodeString? ahead).map (Char.ofNat code :: ·)
  | '\\' :: letter :: ahead =>
      let character :=
        match letter with
        | 'b' => '\x08'
        | 'f' => '\x0c'
        | 'n' => '\n'
        | 'r' => '\r'
        | 't' => '\t'
        | other => other
      (decodeString? ahead).map (character :: ·)
  | character :: ahead => (decodeString? ahead).map (character :: ·)

/-- The natural number that a spelling stands for; a sign, a point or a power makes it none. -/
def natural? (spelling : Text) : Option Nat :=
  if spelling.all isDigit then
    some (spelling.foldl (fun number digit => 10 * number + (digit.toNat - '0'.toNat)) 0)
  else none

/-- The natural number of 64 bits that a spelling stands for. -/
def natural64? (spelling : Text) : Option Nat :=
  match natural? spelling with
  | some found => if found ≤ 0xFFFFFFFFFFFFFFFF then some found else none
  | _ => none

end JsonValue

end CleanSvg
