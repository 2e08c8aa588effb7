import CleanSvg.Text.Basic

/-!
# Why markup is refused

Each kind of failure has its causes, and each cause its wording.  Ranges and
positions count bytes.
-/

namespace CleanSvg

/-- What stops the reading of tags, comments and other markup. -/
inductive ReadError
  | invalidBangMarkup
  | unclosedInstruction
  | unclosedComment
  | unclosedDoctype
  | unclosedCharacterData
  | unclosedTag
  | missingDoctypeName
  | unmatchedEndTag (name : Text)
  | mismatchedEndTag (expected found : Text)
deriving DecidableEq, Repr

/-- Why digits are no number of 32 bits. -/
inductive NumberError
  | empty
  | invalidDigit
  | tooLarge
deriving DecidableEq, Repr

/-- What is wrong with a reference to a character. -/
inductive ReferenceError
  | unterminated (first last : Nat)
  | unrecognized (first last : Nat) (name : Text)
  | unexpectedSign
  | invalidNumber (cause : NumberError)
  | invalidCodePoint (code : Nat)
  | nullCharacter
deriving DecidableEq, Repr

/-- What is wrong with the attributes of a tag. -/
inductive AttributeError
  | expectedEquals (position : Nat)
  | expectedValue (position : Nat)
  | unquotedValue (position : Nat)
  | expectedQuote (position : Nat) (quote : Char)
  | duplicated (position previous : Nat)
deriving DecidableEq, Repr

/-- Why a text is not the markup of one element. -/
inductive ParseError
  | malformedMarkup (cause : ReadError)
  | malformedReference (cause : ReferenceError)
  | malformedAttribute (cause : AttributeError)
  | duplicateAttribute (name : Text)
  | noRoot
  | multipleRoots
  | textOutsideRoot
  | unclosed (name : Text)
  | unexpectedEnd
deriving DecidableEq, Repr

def ReadError.message : ReadError → Text
  | .invalidBangMarkup => "syntax error: unknown or missed symbol in markup"
  | .unclosedInstruction =>
      "syntax error: processing instruction or xml declaration not closed: `?>` not found before end of input"
  | .unclosedComment => "syntax error: comment not closed: `-->` not found before end of input"
  | .unclosedDoctype => "syntax error: DOCTYPE not closed: `>` not found before end of input"
  | .unclosedCharacterData =>
      "syntax error: CDATA not closed: `]]>` not found before end of input"
  | .unclosedTag => "syntax error: tag not closed: `>` not found before end of input"
  | .missingDoctypeName =>
      "ill-formed document: `<!DOCTYPE>` declaration does not contain a name of a document type"
  | .unmatchedEndTag name =>
      "ill-formed document: close tag `</".toList ++ name ++ ">` does not match any open tag".toList
  | .mismatchedEndTag expected found =>
      "ill-formed document: expected `</".toList ++ expected ++ ">`, but `</".toList ++ found ++
        ">` was found".toList

def NumberError.message : NumberError → Text
  | .empty => "cannot parse integer from empty string"
  | .invalidDigit => "invalid digit found in string"
  | .tooLarge => "number too large to fit in target type"

def ReferenceError.message : ReferenceError → Text
  | .unterminated first last =>
      "Error while escaping character at range ".toList ++ Text.ofNat first ++ "..".toList ++
        Text.ofNat last ++ ": Cannot find ';' after '&'".toList
  | .unrecognized first last name =>
      "at ".toList ++ Text.ofNat first ++ "..".toList ++ Text.ofNat last ++
        ": unrecognized entity `".toList ++ name ++ "`".toList
  | .unexpectedSign => "invalid character reference: unexpected number sign"
  | .invalidNumber cause => "invalid character reference: ".toList ++ cause.message
  | .invalidCodePoint code =>
      "invalid character reference: `".toList ++ Text.ofNat code ++
        "` is not a valid codepoint".toList
  | .nullCharacter => "invalid character reference: 0x0 character is not permitted in XML"

def AttributeError.message : AttributeError → Text
  | .expectedEquals position =>
      placed position ++ "attribute key must be directly followed by `=` or space".toList
  | .expectedValue position =>
      placed position ++ "`=` must be followed by an attribute value".toList
  | .unquotedValue position =>
      placed position ++ "attribute value must be enclosed in `\"` or `'`".toList
  | .expectedQuote position quote =>
      placed position ++ "missing closing quote `".toList ++ [quote] ++
        "` in attribute value".toList
  | .duplicated position previous =>
      placed position ++ "duplicated attribute, previous declaration at position ".toList ++
        Text.ofNat previous
where
  /-- The position that a wording begins with. -/
  placed (position : Nat) : Text :=
    "position ".toList ++ Text.ofNat position ++ ": ".toList

def ParseError.message : ParseError → Text
  | .malformedMarkup cause => "malformed markup: ".toList ++ cause.message
  | .malformedReference cause => "malformed markup: ".toList ++ cause.message
  | .malformedAttribute cause => "malformed attribute: ".toList ++ cause.message
  | .duplicateAttribute name =>
      "attribute ".toList ++ name ++ " appears more than once".toList
  | .noRoot => "document has no root element"
  | .multipleRoots => "document has more than one root element"
  | .textOutsideRoot => "text outside the root element"
  | .unclosed name => "element <".toList ++ name ++ "> is never closed".toList
  | .unexpectedEnd => "closing tag without a matching start tag"

end CleanSvg
