import CleanSvg.Link.Invisible
import CleanSvg.Link.MediaType

/-!
# Which addresses an element may carry

The element decides what its link is for, and so which forms of address it may
have.  Every test is made on the address without invisible characters; an
address that passes is kept as it was written.
-/

namespace CleanSvg

/-- The forms of address that an element may link to. -/
inductive LinkContext
  /-- An image in the address itself, made of pixels. -/
  | rasterDataOnly
  /-- A part of the same document. -/
  | fragmentOnly
  /-- A page or a mail address. -/
  | safeLinkProtocolOnly
  /-- Any content in the address itself, or a part of the same document. -/
  | dataOrFragment
deriving DecidableEq, Repr

namespace Link

/-- Whether an address is a reference into the same document. -/
def isFragment (address : Text) : Bool :=
  address.head? == some '#'

/-- Whether an address begins with one of the schemes a reader may follow. -/
def hasSafeProtocol (address : Text) : Bool :=
  Text.beginsWith "http:" address || Text.beginsWith "https:" address ||
    Text.beginsWith "mailto:" address

/-- Whether a value, without its invisible characters, may stand as a link to follow. -/
def isSafe (value : Text) : Bool :=
  hasSafeProtocol (Text.stripInvisible value)

end Link

namespace LinkContext

/-- The context an element gives to its link, by its name in any case. -/
def ofTag (tag : Text) : LinkContext :=
  let name := Text.asciiLowercase tag
  if name = "image" ∨ name = "feimage" then .rasterDataOnly
  else if name = "use" then .fragmentOnly
  else if name = "a" then .safeLinkProtocolOnly
  else .dataOrFragment

/-- Whether a context allows an address; invisible characters have to be gone already. -/
def accepts (context : LinkContext) (address : Text) : Bool :=
  match context with
  | .rasterDataOnly => MediaTypes.raster.accept address
  | .fragmentOnly => Link.isFragment address
  | .safeLinkProtocolOnly => Link.hasSafeProtocol address
  | .dataOrFragment => Text.beginsWith "data:" address || Link.isFragment address

end LinkContext

/-- The value of a link, as it was written, if the element may carry it. -/
def Link.accepted? (tag value : Text) : Option Text :=
  if (LinkContext.ofTag tag).accepts (Text.stripInvisible value) then some value else none

end CleanSvg
