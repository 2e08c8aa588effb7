import CleanSvg.Text.CharacterSet

/-!
# Invisible characters

Browsers pass over control characters and odd spaces when they read a scheme,
so every test of an address is made on the text without them.
-/

namespace CleanSvg

/-- Control characters, spaces and format characters that do not show. -/
def CharacterSet.invisible : CharacterSet where
  ranges := [(0x00, 0x20), (0xA0, 0xA0), (0x1680, 0x1680), (0x180E, 0x180E), (0x2000, 0x2029),
    (0x205F, 0x205F), (0x3000, 0x3000), (0xFEFF, 0xFEFF)]

namespace Text

def isInvisible (character : Char) : Bool :=
  CharacterSet.invisible.contains character

def stripInvisible (text : Text) : Text :=
  text.filter fun character => !isInvisible character

@[simp] theorem stripInvisible_append (left right : Text) :
    stripInvisible (left ++ right) = stripInvisible left ++ stripInvisible right := by
  simp [stripInvisible]

end Text

end CleanSvg
