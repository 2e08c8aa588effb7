import CleanSvg.Text.Basic

/-!
# Names that are allowed

The lists of element and attribute names that the rules refer to, all in lower
case.  A name that is on no list is not trusted.
-/

namespace CleanSvg.Names

/-- The root element that every accepted document has. -/
def root : Text := "svg"

/-- The one element whose children are a document of another kind. -/
def embeddingElement : Text := "foreignobject"

/-- The element whose text is a stylesheet. -/
def style : Text := "style"

/-- The element that links to other pages. -/
def anchor : Text := "a"

def vectorElements : List Text := List.map String.toList [
    "svg", "a", "altglyph", "altglyphdef", "altglyphitem", "animate", "animatecolor",
    "animatemotion", "animatetransform", "circle", "clippath", "defs", "desc", "ellipse",
    "feblend", "fecolormatrix", "fecomponenttransfer", "fecomposite", "feconvolvematrix",
    "fediffuselighting", "fedisplacementmap", "fedistantlight", "fedropshadow", "feflood",
    "fefunca", "fefuncb", "fefuncg", "fefuncr", "fegaussianblur", "feimage", "femerge",
    "femergenode", "femorphology", "feoffset", "fepointlight", "fespecularlighting",
    "fespotlight", "fetile", "feturbulence", "filter", "font", "foreignobject", "g", "glyph",
    "glyphref", "hkern", "image", "line", "lineargradient", "marker", "mask", "metadata",
    "mpath", "path", "pattern", "polygon", "polyline", "radialgradient", "rect", "set", "stop",
    "style", "switch", "symbol", "text", "textpath", "title", "tref", "tspan", "use", "view",
    "vkern"]

def embeddedElements : List Text := List.map String.toList [
    "a", "b", "blockquote", "body", "br", "code", "del", "div", "em", "h1", "h2", "h3", "h4",
    "h5", "h6", "i", "li", "mark", "ol", "p", "pre", "span", "strong", "s", "sub", "sup",
    "table", "tbody", "td", "th", "thead", "tr", "u", "ul"]

/-- Elements that are dropped from an embedded document whatever else is allowed there. -/
def blockedEmbeddedElements : List Text := List.map String.toList [
    "script", "iframe", "object", "embed", "form", "input", "textarea", "select", "button",
    "link", "meta", "base", "img", "video", "audio", "source", "picture", "svg"]

def vectorAttributes : List Text := List.map String.toList [
    "accent-height", "accumulate", "additive", "alignment-baseline", "amplitude", "ascent",
    "attributename", "attributetype", "azimuth", "basefrequency", "baseline-shift", "begin",
    "bias", "by", "class", "clip", "clip-path", "clip-rule", "clippathunits", "color",
    "color-interpolation", "color-interpolation-filters", "color-profile", "color-rendering",
    "cx", "cy", "d", "diffuseconstant", "direction", "display", "divisor", "dominant-baseline",
    "dur", "dx", "dy", "edgemode", "elevation", "end", "exponent", "fill", "fill-opacity",
    "fill-rule", "filter", "filterunits", "flood-color", "flood-opacity", "font-family",
    "font-size", "font-size-adjust", "font-stretch", "font-style", "font-variant",
    "font-weight", "from", "fx", "fy", "g1", "g2", "glyph-name", "glyphref",
    "gradienttransform", "gradientunits", "height", "href", "id", "image-rendering", "in",
    "in2", "intercept", "k", "k1", "k2", "k3", "k4", "kerning", "kernelmatrix",
    "kernelunitlength", "keypoints", "keysplines", "keytimes", "lang", "lengthadjust",
    "letter-spacing", "lighting-color", "local", "marker-end", "marker-mid", "marker-start",
    "markerheight", "markerunits", "markerwidth", "mask", "mask-type", "maskcontentunits",
    "maskunits", "max", "media", "method", "min", "mode", "name", "numoctaves", "offset",
    "opacity", "operator", "order", "orient", "orientation", "origin", "overflow",
    "paint-order", "path", "pathlength", "patterncontentunits", "patterntransform",
    "patternunits", "pointer-events", "points", "preservealpha", "preserveaspectratio",
    "primitiveunits", "r", "radius", "refx", "refy", "repeatcount", "repeatdur",
    "requiredfeatures", "restart", "result", "role", "rotate", "rx", "ry", "scale", "seed",
    "shape-rendering", "slope", "specularconstant", "specularexponent", "spreadmethod",
    "startoffset", "stddeviation", "stitchtiles", "stop-color", "stop-opacity", "stroke",
    "stroke-dasharray", "stroke-dashoffset", "stroke-linecap", "stroke-linejoin",
    "stroke-miterlimit", "stroke-opacity", "stroke-width", "style", "surfacescale",
    "systemlanguage", "tabindex", "tablevalues", "targetx", "targety", "text-anchor",
    "text-decoration", "text-rendering", "textlength", "to", "transform", "transform-origin",
    "type", "u1", "u2", "unicode", "values", "version", "vert-adv-y", "vert-origin-x",
    "vert-origin-y", "viewbox", "visibility", "width", "word-spacing", "wrap", "writing-mode",
    "x", "x1", "x2", "xchannelselector", "xlink:href", "xml:id", "xml:space", "xlink:title",
    "xmlns", "xmlns:xlink", "y", "y1", "y2", "z", "zoomandpan"]

def embeddedAttributes : List Text := List.map String.toList [
    "class", "dir", "href", "id", "lang", "role", "style", "tabindex", "title", "xmlns"]

/-- Presentation attributes whose value may point somewhere. -/
def urlBearingAttributes : List Text := List.map String.toList [
    "clip-path", "cursor", "fill", "filter", "marker-end", "marker-mid", "marker-start", "mask",
    "stroke"]

/-- Elements that can change another attribute while the graphic is shown. -/
def animationElements : List Text := List.map String.toList [
    "animate", "set", "animatecolor", "animatetransform"]

end CleanSvg.Names
