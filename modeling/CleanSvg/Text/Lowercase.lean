import CleanSvg.Text.Lowercase.Mapping
import CleanSvg.Text.Lowercase.Cased

/-!
# Lowercase of a text

Every character is lowered on its own but the capital sigma, whose small form
depends on where it stands: at the end of a word it is the final sigma.
-/

namespace CleanSvg.Text

/-- Whether the first character that counts for case is a cased one. -/
def meetsCased (text : Text) : Bool :=
  match text.dropWhile CharacterSet.caseIgnorable.contains with
  | [] => false
  | character :: _ => CharacterSet.cased.contains character

/-- Lowers a text; `before` holds what was read already, last character first. -/
def lowercaseAfter (before : Text) : Text → Text
  | [] => []
  | character :: after =>
      let lowered :=
        if character = '\u03A3' then
          if meetsCased before && !meetsCased after then ['\u03C2'] else ['\u03C3']
        else lowerLetter character
      lowered ++ lowercaseAfter (character :: before) after

def lowercase (text : Text) : Text :=
  lowercaseAfter [] text

end CleanSvg.Text
