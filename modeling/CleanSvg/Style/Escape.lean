import CleanSvg.Text.Pattern

/-!
# Escapes in style text

A backslash with up to six hexadecimal digits spells a character by its code
point, and white space may end the digits; before anything else but a line feed
a backslash stands for the character after it.  A backslash that begins neither
form stays.
-/

namespace CleanSvg.Style

/-- The value of a hexadecimal digit of either case. -/
def hexDigit? (character : Char) : Option Nat :=
  if '0' ≤ character ∧ character ≤ '9' then some (character.toNat - '0'.toNat)
  else if 'a' ≤ character ∧ character ≤ 'f' then some (character.toNat - 'a'.toNat + 10)
  else if 'A' ≤ character ∧ character ≤ 'F' then some (character.toNat - 'A'.toNat + 10)
  else none

def isHexDigit (character : Char) : Bool :=
  (hexDigit? character).isSome

def hexValue (digits : Text) : Nat :=
  digits.foldl (fun value digit => 16 * value + (hexDigit? digit).getD 0) 0

/-- The character of a code point; zero and numbers that are no character give U+FFFD. -/
def escapedCharacter (code : Nat) : Char :=
  if code ≠ 0 ∧ code.isValidChar then Char.ofNat code else '\uFFFD'

/-- An escape by code point: one to six digits and at most one white space after them. -/
def codePointEscape : Pattern Char := do
  Pattern.symbol '\\'
  let first ← Pattern.one isHexDigit
  let others ← Pattern.runUpTo 5 isHexDigit
  Pattern.optional (Pattern.one Text.isBlank)
  pure (escapedCharacter (hexValue (first :: others)))

/-- An escape of a single character that is not a line feed. -/
def literalEscape : Pattern Char := do
  Pattern.symbol '\\'
  Pattern.one fun character => character != '\n'

/-- An escape, with the character it spells. -/
def escape : Pattern Char :=
  codePointEscape <|> literalEscape

/-- Replaces every escape by the character it spells. -/
def decodeEscapes (css : Text) : Text :=
  escape.replaceAll (fun piece => [piece.value]) css

end CleanSvg.Style
