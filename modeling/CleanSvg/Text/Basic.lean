/-!
# Texts and their size

A text is the list of its Unicode characters.  Limits and error positions count
the bytes of its UTF-8 form, so the size of a text is a sum over its characters
and the size of two joined texts is the sum of their sizes.
-/

namespace CleanSvg

/-- A text: its Unicode characters in order. -/
abbrev Text := List Char

instance : Coe String Text where
  coe := String.toList

namespace Text

/-- The number of bytes a text takes in UTF-8. -/
def byteSize (text : Text) : Nat :=
  text.foldl (fun size character => size + character.utf8Size) 0

@[simp] theorem byteSize_nil : byteSize [] = 0 := rfl

theorem foldl_utf8Size (size : Nat) (text : Text) :
    text.foldl (fun size character => size + character.utf8Size) size = size + byteSize text := by
  induction text generalizing size with
  | nil => rfl
  | cons character text induction =>
      rw [byteSize, List.foldl_cons, List.foldl_cons, induction, induction (0 + _)]
      omega

@[simp] theorem byteSize_cons (character : Char) (text : Text) :
    byteSize (character :: text) = character.utf8Size + byteSize text := by
  rw [byteSize, List.foldl_cons, foldl_utf8Size, Nat.zero_add]

@[simp] theorem byteSize_append (left right : Text) :
    byteSize (left ++ right) = byteSize left + byteSize right := by
  rw [byteSize, List.foldl_append, foldl_utf8Size, foldl_utf8Size, Nat.zero_add]

/-- What follows `word` at the beginning of a text. -/
def after? : Text → Text → Option Text
  | [], ahead => some ahead
  | _ :: _, [] => none
  | letter :: word, character :: ahead =>
      if character = letter then after? word ahead else none

theorem after?_eq_some_iff {word text ahead : Text} :
    after? word text = some ahead ↔ text = word ++ ahead := by
  induction word generalizing text with
  | nil => simp [after?]
  | cons letter word induction =>
      cases text with
      | nil => simp [after?]
      | cons character text =>
          by_cases same : character = letter
          · simp [after?, same, induction]
          · simp [after?, same]

def ofNat (number : Nat) : Text :=
  (toString number).toList

end Text

end CleanSvg
