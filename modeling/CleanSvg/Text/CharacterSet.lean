import CleanSvg.Text.Basic

/-!
# Sets of characters

Classes of characters are given by ranges of code points.  This module holds
the sets that more than one part of the library asks for; larger sets that
only one operation needs stand beside it.
-/

namespace CleanSvg

/-- A set of characters: ranges of code points, both ends included. -/
structure CharacterSet where
  ranges : List (Nat × Nat)

namespace CharacterSet

def contains (set : CharacterSet) (character : Char) : Bool :=
  set.ranges.any fun (first, last) =>
    first ≤ character.toNat && character.toNat ≤ last

theorem contains_iff {set : CharacterSet} {character : Char} :
    set.contains character = true ↔
      ∃ range ∈ set.ranges, range.1 ≤ character.toNat ∧ character.toNat ≤ range.2 := by
  simp [contains]

/-- The characters with the Unicode property `White_Space`. -/
def whiteSpace : CharacterSet where
  ranges := [(0x09, 0x0D), (0x20, 0x20), (0x85, 0x85), (0xA0, 0xA0), (0x1680, 0x1680),
    (0x2000, 0x200A), (0x2028, 0x2029), (0x202F, 0x202F), (0x205F, 0x205F), (0x3000, 0x3000)]

end CharacterSet

namespace Text

/-- Whether a character is white space in the sense of Unicode. -/
def isBlank (character : Char) : Bool :=
  CharacterSet.whiteSpace.contains character

def allBlank (text : Text) : Bool :=
  text.all isBlank

end Text

end CleanSvg
