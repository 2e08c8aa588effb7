import CleanSvg.Markup.Tag
import CleanSvg.Steps
import CleanSvg.Text.Pattern

/-!
# Events of markup

A reader goes through a text event by event: tags, runs of text, character data
and things to pass over.  It remembers the names of the elements it has opened,
and an end tag has to name the innermost of them.  Each form ends at its first
terminator; only in tags do quotes hide the terminator.
-/

namespace CleanSvg

/-- What a reader meets in a text. -/
inductive Event
  /-- A start tag, with what stands between its brackets. -/
  | startTag (inside : Text)
  /-- A tag that opens and closes an element, with what stands before its slash. -/
  | emptyTag (inside : Text)
  /-- An end tag. -/
  | endTag (name : Text)
  /-- Text as it is written, references and all. -/
  | text (written : Text)
  /-- Text that holds no references. -/
  | characterData (characters : Text)
  /-- A comment, an instruction, a declaration. -/
  | passedOver
deriving DecidableEq, Repr

/-- A reader: what lies ahead of it, and the names of the elements it has opened, the
innermost first. -/
structure Reader where
  ahead : Text
  opened : List Text
deriving DecidableEq, Repr

namespace Reader

/-- A reader at the beginning of a text.  A byte order mark is not part of the text. -/
def ofText : Text → Reader
  | '\uFEFF' :: text => ⟨text, []⟩
  | text => ⟨text, []⟩

/-- Follows the quotes in a tag, to the closing bracket that stands outside them. -/
def quoteStep (quote : Option Char) (character : Char) : Option (Option Char) :=
  match quote with
  | none =>
      if character = '>' then none
      else if character = '"' ∨ character = '\'' then some (some character)
      else some none
  | some opening => if character = opening then some none else some quote

/-- The rest of a tag, through its closing bracket. -/
def tagRest : Pattern Text :=
  Pattern.scan quoteStep none

/-- Counts the brackets in a document type, to the closing one that has no partner. -/
def bracketStep (depth : Nat) (character : Char) : Option Nat :=
  if character = '<' then some (depth + 1)
  else if character = '>' then if depth = 0 then none else some (depth - 1)
  else some depth

/-- The rest of a document type, through its closing bracket. -/
def doctypeRest : Pattern Text :=
  Pattern.scan bracketStep 0

/-- Everything through the first place where a text of signs stands. -/
def through (signs : Text) : Pattern Text :=
  Pattern.through (Pattern.literal signs)

/-- Reads with a pattern, or fails for want of its terminator. -/
def close (pattern : Pattern Text) (unclosed : ReadError) (ahead : Text) :
    Except ReadError (Piece Text) :=
  match pattern.read ahead with
  | some piece => .ok piece
  | none => .error unclosed

/-- Reads the rest of a comment, after `<!-`. -/
def comment : Text → Except ReadError (Piece Text)
  | '-' :: ahead => close (through "-->") .unclosedComment ahead
  | _ => .error .unclosedComment

/-- Reads the rest of character data, after `<![`. -/
def characterData (ahead : Text) : Except ReadError (Piece Text) :=
  match Text.after? "CDATA[" ahead with
  | some ahead => close (through "]]>") .unclosedCharacterData ahead
  | none => .error .unclosedCharacterData

/-- Reads the rest of a document type, after `<!`. -/
def doctype (ahead : Text) : Except ReadError (Piece Text) := do
  let piece ← close doctypeRest .unclosedDoctype ahead
  match Text.afterKeyword? "doctype" piece.value with
  | none => .error .unclosedDoctype
  | some name => if name.all Tag.isSpace then .error .missingDoctypeName else .ok piece

/-- Reads the rest of an instruction, after `<`. -/
def instruction (ahead : Text) : Except ReadError (Piece Text) := do
  let piece ← close (through "?>") .unclosedInstruction ahead
  if piece.value.isEmpty then .error .unclosedInstruction else .ok piece

/-- The name in an end tag: white space after it does not count. -/
def endTagName (inside : Text) : Text :=
  if inside.all Tag.isSpace then inside
  else (inside.reverse.dropWhile Tag.isSpace).reverse

/-- Reads the rest of markup that begins with `<!`. -/
def readBang : Text → Except ReadError (Event × Text)
  | '[' :: ahead => do
      let piece ← characterData ahead
      .ok (.characterData piece.value, piece.ahead)
  | '-' :: ahead => do
      let piece ← comment ahead
      .ok (.passedOver, piece.ahead)
  | character :: ahead =>
      if character = 'D' ∨ character = 'd' then do
        let piece ← doctype (character :: ahead)
        .ok (.passedOver, piece.ahead)
      else .error .invalidBangMarkup
  | [] => .error .invalidBangMarkup

/-- Reads the rest of an end tag, which has to name the innermost open element. -/
def readEndTag (opened : List Text) (ahead : Text) : Except ReadError (Event × Reader) := do
  let piece ← close tagRest .unclosedTag ahead
  let name := endTagName piece.value
  match opened with
  | [] => .error (.unmatchedEndTag name)
  | expected :: outer =>
      if name = expected then .ok (.endTag name, ⟨piece.ahead, outer⟩)
      else .error (.mismatchedEndTag expected name)

/-- Reads the rest of a start tag or of an empty one. -/
def readStartTag (opened : List Text) (ahead : Text) : Except ReadError (Event × Reader) := do
  let piece ← close tagRest .unclosedTag ahead
  if piece.value.getLast? = some '/' then
    .ok (.emptyTag piece.value.dropLast, ⟨piece.ahead, opened⟩)
  else .ok (.startTag piece.value, ⟨piece.ahead, Tag.elementName piece.value :: opened⟩)

/-- Reads the rest of markup, after its opening bracket. -/
def readMarkup (opened : List Text) : Text → Except ReadError (Event × Reader)
  | '!' :: ahead => do
      let (event, rest) ← readBang ahead
      .ok (event, ⟨rest, opened⟩)
  | '/' :: ahead => readEndTag opened ahead
  | '?' :: ahead => do
      let piece ← instruction ('?' :: ahead)
      .ok (.passedOver, ⟨piece.ahead, opened⟩)
  | [] => .error .unclosedTag
  | ahead => readStartTag opened ahead

/-- The next event, and the reader after it; nothing at the end of the text. -/
def next? (reader : Reader) : Except ReadError (Option (Event × Reader)) :=
  match reader.ahead with
  | [] => .ok none
  | '<' :: ahead => do
      let result ← readMarkup reader.opened ahead
      .ok (some result)
  | character :: ahead =>
      .ok (some (.text (character :: ahead.takeWhile (· != '<')),
        ⟨ahead.dropWhile (· != '<'), reader.opened⟩))

section

variable {ahead rest : Text} {opened : List Text} {piece : Piece Text} {event : Event}
  {after : Reader}

theorem close_suffix {pattern : Pattern Text} {unclosed : ReadError}
    (read : close pattern unclosed ahead = .ok piece) : piece.ahead <:+ ahead := by
  unfold close at read
  split at read
  · rename_i found
    cases read
    exact Pattern.ahead_suffix found
  · cases read

theorem comment_suffix (read : comment ahead = .ok piece) : piece.ahead <:+ ahead := by
  unfold comment at read
  split at read
  · exact (close_suffix read).trans (List.suffix_cons _ _)
  · cases read

theorem characterData_suffix (read : characterData ahead = .ok piece) :
    piece.ahead <:+ ahead := by
  unfold characterData at read
  split at read
  · rename_i rest found
    rw [Text.after?_eq_some_iff.mp found]
    exact (close_suffix read).trans (List.suffix_append _ _)
  · cases read

theorem doctype_suffix (read : doctype ahead = .ok piece) : piece.ahead <:+ ahead := by
  obtain ⟨found, closed, checked⟩ := bind_eq_ok_iff.mp read
  split at checked
  · cases checked
  · split at checked
    · cases checked
    · cases checked
      exact close_suffix closed

theorem instruction_suffix (read : instruction ahead = .ok piece) : piece.ahead <:+ ahead := by
  obtain ⟨found, closed, checked⟩ := bind_eq_ok_iff.mp read
  split at checked
  · cases checked
  · cases checked
    exact close_suffix closed

theorem readBang_suffix (read : readBang ahead = .ok (event, rest)) : rest <:+ ahead := by
  unfold readBang at read
  split at read
  · obtain ⟨piece, found, same⟩ := bind_eq_ok_iff.mp read
    cases same
    exact (characterData_suffix found).trans (List.suffix_cons _ _)
  · obtain ⟨piece, found, same⟩ := bind_eq_ok_iff.mp read
    cases same
    exact (comment_suffix found).trans (List.suffix_cons _ _)
  · split at read
    · obtain ⟨piece, found, same⟩ := bind_eq_ok_iff.mp read
      cases same
      exact doctype_suffix found
    · cases read
  · cases read

theorem readEndTag_suffix (read : readEndTag opened ahead = .ok (event, after)) :
    after.ahead <:+ ahead := by
  obtain ⟨piece, found, checked⟩ := bind_eq_ok_iff.mp read
  simp only at checked
  split at checked
  · cases checked
  · split at checked
    · cases checked
      exact close_suffix found
    · cases checked

theorem readStartTag_suffix (read : readStartTag opened ahead = .ok (event, after)) :
    after.ahead <:+ ahead := by
  obtain ⟨piece, found, same⟩ := bind_eq_ok_iff.mp read
  split at same <;>
    · cases same
      exact close_suffix found

theorem readMarkup_suffix (read : readMarkup opened ahead = .ok (event, after)) :
    after.ahead <:+ ahead := by
  unfold readMarkup at read
  split at read
  · obtain ⟨⟨inner, rest⟩, found, same⟩ := bind_eq_ok_iff.mp read
    cases same
    exact (readBang_suffix found).trans (List.suffix_cons _ _)
  · exact (readEndTag_suffix read).trans (List.suffix_cons _ _)
  · obtain ⟨piece, found, same⟩ := bind_eq_ok_iff.mp read
    cases same
    exact instruction_suffix found
  · cases read
  · exact readStartTag_suffix read

end

theorem next?_length {reader after : Reader} {event : Event}
    (read : reader.next? = .ok (some (event, after))) :
    after.ahead.length < reader.ahead.length := by
  unfold next? at read
  split at read
  · cases read
  · rename_i ahead begun
    obtain ⟨⟨inner, rest⟩, found, same⟩ := bind_eq_ok_iff.mp read
    cases same
    rw [begun]
    exact Nat.lt_succ_of_le (readMarkup_suffix found).length_le
  · rename_i character ahead _ begun
    cases read
    rw [begun]
    exact Nat.lt_succ_of_le (List.dropWhile_suffix (l := ahead) (· != '<')).length_le

end Reader

end CleanSvg
