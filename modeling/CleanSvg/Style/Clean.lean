import CleanSvg.Link.Context
import CleanSvg.Style.Escape
import CleanSvg.Style.Rules

/-!
# Cleaning style text

One pass decodes escapes, drops comments and then removes each kind of
forbidden token.  A removal can bring two halves of another token together, so
passes are made until one changes nothing.  Text that has not settled after
four passes is dropped.
-/

namespace CleanSvg.Style

/-- Style text without escapes, backslashes and comments. -/
def normalize (css : Text) : Text :=
  comment.eraseAll ((decodeEscapes css).filter fun character => character != '\\')

/-- Whether a value holds the opening of a `url` token once it is normalized. -/
def containsUrl (value : Text) : Bool :=
  urlOpening.occursIn (normalize value)

/-- Whether the payload of a `url` token is a reference into the document or a harmless
`data:` address. -/
def isAllowedPayload (payload : Text) : Bool :=
  let address := Text.stripInvisible payload
  Link.isFragment address || MediaTypes.styleResource.accept address

/-- Removes the `url` tokens whose payload is not allowed. -/
def filterUrls (css : Text) : Text :=
  urlToken.replaceAll (fun token => if isAllowedPayload token.value then token.taken else []) css

/-- Takes the name off every choice among images and leaves its parenthesis. -/
def disarmImageSets (css : Text) : Text :=
  imageSetOpening.replaceAll (fun _ => ['(']) css

/-- One pass over style text. -/
def cleanOnce (css : Text) : Text :=
  let withoutImports := importRule.eraseAll (normalize css)
  let withoutExpressions := expressionCall.eraseAll withoutImports
  let withoutBindings := bindingDeclaration.eraseAll withoutExpressions
  let withoutBehaviors := behaviorDeclaration.eraseAll withoutBindings
  filterUrls (disarmImageSets withoutBehaviors)

/-- The number of passes after which style text has to have settled. -/
def passLimit : Nat := 4

/-- Repeats the pass until it changes nothing; `none` after `passes` more passes. -/
def settle? : Nat → Text → Option Text
  | 0, _ => none
  | passes + 1, css =>
      let next := cleanOnce css
      if next = css then some css else settle? passes next

/-- The settled form of style text, if it settles within the limit of passes. -/
def settled? (css : Text) : Option Text :=
  settle? (passLimit - 1) (cleanOnce css)

/-- Cleans style text; text that does not settle leaves nothing. -/
def clean (css : Text) : Text :=
  (settled? css).getD []

end CleanSvg.Style
