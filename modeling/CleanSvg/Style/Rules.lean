import CleanSvg.Text.Pattern

/-!
# What style text may not hold

The tokens that a cleaned stylesheet is searched for.  They are patterns over
text, not a grammar of stylesheets: each says where it begins and how far it
reaches.
-/

namespace CleanSvg.Style

/-- A comment.  One that is not closed runs to the end of the text. -/
def comment : Pattern Text := do
  Pattern.keyword "/*"
  Pattern.through (Pattern.keyword "*/" <|> Pattern.atEnd)

/-- The opening of a function call: a name and a parenthesis, white space between them. -/
def callOpening (name : Text) : Pattern Unit := do
  Pattern.keyword name
  Pattern.blanks
  Pattern.symbol '('

/-- A function call up to its first closing parenthesis. -/
def closedCall (name : Text) : Pattern Unit := do
  callOpening name
  let _ ← Pattern.through (Pattern.symbol ')')

/-- A text between two quotes of one kind. -/
def quoted (quote : Char) : Pattern Unit := do
  Pattern.symbol quote
  let _ ← Pattern.through (Pattern.symbol quote)

/-- The target of an import, with the white space that has to stand before it. -/
def importTarget : Pattern Unit := do
  let _ ← Pattern.one Text.isBlank
  Pattern.blanks
  closedCall "url" <|> quoted '"' <|> quoted '\''

/-- An import rule through its semicolon.  Its target is read as a whole first, so a semicolon
inside the target does not end the rule. -/
def importRule : Pattern Unit := do
  Pattern.keyword "@import"
  Pattern.optional importTarget
  Pattern.upTo ';'
  Pattern.optional (Pattern.symbol ';')

def expressionCall : Pattern Unit :=
  closedCall "expression"

def declaration (property : Text) : Pattern Unit := do
  Pattern.keyword property
  Pattern.blanks
  Pattern.symbol ':'
  Pattern.upTo ';'

/-- A declaration that binds a script to an element. -/
def bindingDeclaration : Pattern Unit :=
  declaration "-moz-binding"

/-- A declaration that attaches a behavior to an element. -/
def behaviorDeclaration : Pattern Unit :=
  declaration "behavior"

/-- The opening of a choice among images, which fetches plain strings too. -/
def imageSetOpening : Pattern Unit := do
  Pattern.optional (Pattern.keyword "-webkit-")
  callOpening "image-set"

def urlOpening : Pattern Unit :=
  callOpening "url"

/-- The end of a `url` token: its closing parenthesis or the end of the text. -/
def urlClosing : Pattern Unit := do
  Pattern.blanks
  Pattern.symbol ')' <|> Pattern.atEnd

/-- The payload of a `url` token between quotes, and the end of the token. -/
def quotedPayload (quote : Char) : Pattern Text := do
  Pattern.symbol quote
  Pattern.through (do
    Pattern.symbol quote
    urlClosing)

/-- A `url` token, with its payload.  A token that is not closed runs to the end of the text,
where it would still be fetched. -/
def urlToken : Pattern Text := do
  urlOpening
  Pattern.blanks
  quotedPayload '"' <|> quotedPayload '\'' <|> Pattern.through urlClosing

end CleanSvg.Style
