import CleanSvg.Text.CaseFold

/-!
# Data addresses of given media types

A `data:` address carries its content with it.  Whether it is harmless depends
on the media type named after the colon, which ends at a semicolon or a comma.
-/

namespace CleanSvg

/-- A list of media types that a rule allows, in lower case. -/
abbrev MediaTypes := List Text

namespace MediaTypes

/-- Images made of pixels.  Vector images are absent: one could carry a second document
that nobody cleaned. -/
def raster : MediaTypes :=
  ["image/png", "image/jpeg", "image/jpg", "image/gif", "image/webp", "image/avif", "image/bmp",
    "image/tiff", "image/x-icon", "image/vnd.microsoft.icon"]

/-- Images and fonts that a stylesheet may carry. -/
def styleResource : MediaTypes :=
  ["image/png", "image/jpeg", "image/jpg", "image/gif", "image/webp", "image/avif",
    "font/woff", "font/woff2", "font/opentype", "font/truetype", "font/sfnt",
    "application/x-font-woff", "application/font-woff", "application/font-woff2",
    "application/x-font-ttf", "application/x-font-opentype", "application/font-sfnt"]

/-- Whether a text begins with a media type and the semicolon or comma that ends it. -/
def beginsWithType (mediaType text : Text) : Bool :=
  match Text.afterKeyword? mediaType text with
  | some (next :: _) => next == ';' || next == ','
  | _ => false

/-- Whether an address is a `data:` address of one of the types. -/
def accept (types : MediaTypes) (address : Text) : Bool :=
  match Text.afterKeyword? "data:" address with
  | some content => types.any fun mediaType => beginsWithType mediaType content
  | none => false

end MediaTypes

end CleanSvg
