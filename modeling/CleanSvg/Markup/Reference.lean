import CleanSvg.Markup.Error

/-!
# References to characters

Markup spells some characters by references: an ampersand, a name or a number,
and a semicolon.  Writing uses the five named ones; reading also takes code
points in decimal and in hexadecimal.  Reading undoes writing.
-/

namespace CleanSvg.Reference

/-- How a character is written inside an attribute value. -/
def escapeInValue (character : Char) : Text :=
  match character with
  | '<' => "&lt;"
  | '>' => "&gt;"
  | '&' => "&amp;"
  | '\'' => "&apos;"
  | '"' => "&quot;"
  | other => [other]

/-- How a character is written between tags. -/
def escapeInText (character : Char) : Text :=
  match character with
  | '<' => "&lt;"
  | '>' => "&gt;"
  | '&' => "&amp;"
  | other => [other]

def escapeValue (value : Text) : Text :=
  value.flatMap escapeInValue

def escapeText (text : Text) : Text :=
  text.flatMap escapeInText

/-- The value of a digit in a radix of at most sixteen. -/
def digit? (radix : Nat) (character : Char) : Option Nat :=
  let value :=
    if '0' ≤ character ∧ character ≤ '9' then some (character.toNat - '0'.toNat)
    else if 'a' ≤ character ∧ character ≤ 'f' then some (character.toNat - 'a'.toNat + 10)
    else if 'A' ≤ character ∧ character ≤ 'F' then some (character.toNat - 'A'.toNat + 10)
    else none
  value.filter (· < radix)

/-- Reads on in a number of 32 bits.  A character that is no digit counts before a number
that grew too large. -/
def readDigits (radix : Nat) (value : Nat) : Text → Except NumberError Nat
  | [] => .ok value
  | character :: ahead =>
      match digit? radix character with
      | none => .error .invalidDigit
      | some digit =>
          let next := radix * value + digit
          if next ≤ 0xFFFFFFFF then readDigits radix next ahead else .error .tooLarge

/-- Reads the number of a reference, which has no sign. -/
def readNumber (radix : Nat) (digits : Text) : Except ReferenceError Nat :=
  match digits with
  | [] => .error (.invalidNumber .empty)
  | first :: _ =>
      if first = '+' ∨ first = '-' then .error .unexpectedSign
      else (readDigits radix 0 digits).mapError .invalidNumber

def ofCodePoint (code : Nat) : Except ReferenceError Char :=
  if code = 0 then .error .nullCharacter
  else if code.isValidChar then .ok (Char.ofNat code)
  else .error (.invalidCodePoint code)

def named? (name : Text) : Option Char :=
  if name = "lt" then some '<'
  else if name = "gt" then some '>'
  else if name = "amp" then some '&'
  else if name = "apos" then some '\''
  else if name = "quot" then some '"'
  else none

/-- The character of a reference; `start` is the position of its name. -/
def resolve (start : Nat) (name : Text) : Except ReferenceError Char :=
  match name with
  | '#' :: 'x' :: digits => do ofCodePoint (← readNumber 16 digits)
  | '#' :: digits => do ofCodePoint (← readNumber 10 digits)
  | _ =>
      match named? name with
      | some character => .ok character
      | none => .error (.unrecognized start (start + Text.byteSize name) name)

/-- Whether a character ends the name of a reference or begins another. -/
def delimits (character : Char) : Bool :=
  character == '&' || character == ';'

/-- Replaces every reference by its character; `position` is where `text` begins. -/
def unescapeFrom (position : Nat) (text : Text) : Except ReferenceError Text :=
  let plain := text.takeWhile (· != '&')
  match _ : text.dropWhile (· != '&') with
  | [] => .ok plain
  | _ :: body =>
      let start := position + Text.byteSize plain + 1
      let name := body.takeWhile fun character => !delimits character
      match _ : body.dropWhile fun character => !delimits character with
      | ';' :: ahead => do
          let character ← resolve start name
          let others ← unescapeFrom (start + Text.byteSize name + 1) ahead
          .ok (plain ++ character :: others)
      | _ => .error (.unterminated (start - 1) (position + Text.byteSize text))
termination_by text.length
decreasing_by
  rename_i outer inner
  have outerLength := (List.dropWhile_suffix (l := text) (· != '&')).length_le
  have innerLength :=
    (List.dropWhile_suffix (l := body) fun character => !delimits character).length_le
  simp only [outer, inner, List.length_cons] at outerLength innerLength
  omega

/-- Replaces every reference in a text or an attribute value by its character. -/
def unescape (text : Text) : Except ReferenceError Text :=
  unescapeFrom 0 text

end CleanSvg.Reference
