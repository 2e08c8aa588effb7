import CleanSvg.Policy.Mode
import CleanSvg.Style.Clean
import CleanSvg.Text.Lowercase

/-!
# Classes of attributes

What happens to an attribute depends on its class.  Event handlers are told by
the form of their name and not by a list, so names that nobody has thought of
yet are handlers too.
-/

namespace CleanSvg

/-- What an attribute is, as far as its treatment goes. -/
inductive AttributeClass
  | eventHandler
  | dataOrAria
  | knownAllowed
  | uri
  | style
  | urlBearingPresentation
  | disallowed
deriving DecidableEq, Repr

namespace AttributeClass

/-- Whether a name, without invisible characters and in lower case, begins with `on`. -/
def isEventHandlerName (name : Text) : Bool :=
  List.isPrefixOf "on".toList (Text.lowercase (Text.stripInvisible name))

/-- The class of an attribute.  The handlers come first; of the other names only `data-` and
`aria-` names are allowed without a list. -/
def classify (mode : Mode) (name value : Text) : AttributeClass :=
  let lower := Text.lowercase name
  if isEventHandlerName name then .eventHandler
  else if List.isPrefixOf "data-".toList lower || List.isPrefixOf "aria-".toList lower then
    .dataOrAria
  else if !mode.allowedAttributes.contains lower then .disallowed
  else if lower = "href" ∨ lower = "xlink:href" then .uri
  else if lower = "style" then .style
  else if Names.urlBearingAttributes.contains lower && Style.containsUrl value then
    .urlBearingPresentation
  else .knownAllowed

end AttributeClass

end CleanSvg
