import CleanSvg.Link.Invisible
import CleanSvg.Markup.Element

/-!
# Animations that change links and handlers

An animation names the attribute that it changes while the graphic is shown.
One that could bring back a link or an event handler is dangerous, whatever its
other attributes say.
-/

namespace CleanSvg.Animation

/-- The part of a name after its last colon. -/
def localName (name : Text) : Text :=
  (name.reverse.takeWhile (· != ':')).reverse

/-- Whether the attribute named by a target must not be animated. -/
def isProtected (target : Text) : Bool :=
  let name := Text.lowercase (Text.stripInvisible target)
  localName name == "href".toList || List.isPrefixOf "on".toList name ||
    List.isPrefixOf "on".toList (localName name)

/-- Whether attributes of an animation name a protected target, in any spelling of the name. -/
def isDangerous (attributes : List Attribute) : Bool :=
  attributes.any fun candidate =>
    Text.lowercase candidate.name == "attributename".toList && isProtected candidate.value

end CleanSvg.Animation
