import DesignComponents.Attribute.Rename
import DesignComponents.Attribute.Style

/-! Keeping of an element's attributes only what may reach a component, under its name there. -/

set_option autoImplicit false

namespace DesignComponents.Attribute

open Text

/-! ### What is allowed

Nothing can widen these lists. -/

def allowedHtml : List String := [
  "accept", "acceptCharset", "accessKey", "action", "allowFullScreen", "allowTransparency",
  "alt", "async", "autoComplete", "autoFocus", "autoPlay", "cellPadding", "cellSpacing",
  "charSet", "checked", "classID", "className", "colSpan", "cols", "content", "contentEditable",
  "contextMenu", "controls", "coords", "crossOrigin", "data", "dateTime", "defer", "dir",
  "disabled", "download", "draggable", "encType", "form", "formAction", "formEncType",
  "formMethod", "formNoValidate", "formTarget", "frameBorder", "headers", "height", "hidden",
  "high", "href", "hrefLang", "htmlFor", "httpEquiv", "icon", "id", "label", "lang", "list",
  "loop", "low", "manifest", "marginHeight", "marginWidth", "max", "maxLength", "media",
  "mediaGroup", "method", "min", "multiple", "muted", "name", "noValidate", "open", "optimum",
  "pattern", "placeholder", "poster", "preload", "radioGroup", "readOnly", "rel", "required",
  "role", "rowSpan", "rows", "sandbox", "scope", "scoped", "scrolling", "seamless", "selected",
  "shape", "size", "sizes", "span", "spellCheck", "src", "srcDoc", "srcSet", "start", "step",
  "style", "tabIndex", "target", "title", "type", "useMap", "value", "width", "wmode"]

def allowedSvg : List String := [
  "clipPath", "cx", "cy", "d", "dx", "dy", "fill", "fillOpacity", "fontFamily", "fillRule",
  "fontSize", "fontWeight", "fx", "fy", "gradientTransform", "gradientUnits", "markerEnd",
  "markerMid", "markerStart", "offset", "opacity", "patternContentUnits", "patternUnits",
  "points", "preserveAspectRatio", "r", "rx", "ry", "spreadMethod", "stopColor", "stopOpacity",
  "stroke", "strokeDasharray", "strokeLinecap", "strokeLinejoin", "strokeMiterlimit",
  "strokeOpacity", "strokeWidth", "textAnchor", "transform", "vectorEffect", "version",
  "viewBox", "xmlns", "x1", "x2", "x", "y1", "y2", "y", "xlinkActuate", "xlinkArcrole",
  "xlinkHref", "xlinkRole", "xlinkShow", "xlinkTitle", "xlinkType", "xmlBase", "xmlLang",
  "xmlSpace", "mask", "maskUnits", "filter", "filterUnits", "filterRes", "result", "in", "in2",
  "stdDeviation", "colorInterpolationFilters", "floodOpacity", "primitiveUnits", "baseFrequency",
  "numOctaves", "seed", "stitchTiles", "values", "tableValues", "slope", "intercept",
  "amplitude", "exponent", "k1", "k2", "k3", "k4"]

def allowedTags : List String := [
  "circle", "clipPath", "defs", "ellipse", "g", "image", "line", "linearGradient", "mask",
  "path", "pattern", "polygon", "polyline", "radialGradient", "rect", "stop", "svg", "text",
  "use", "tspan", "title", "style", "filter", "feFlood", "feBlend", "feGaussianBlur", "feOffset",
  "feColorMatrix", "feMorphology", "feConvolveMatrix", "feDropShadow", "foreignObject", "switch",
  "symbol", "marker", "textPath", "animate", "animateTransform"]

def isAllowed (name : String) : Bool := allowedHtml.contains name || allowedSvg.contains name

def admitsTag (tag : String) : Bool := allowedTags.contains tag

/-! ### What is kept -/

def urlAttributes : List String := ["href", "xlinkHref", "src"]

/-- Whether a link runs a script. Browsers skip controls and spaces before they read the scheme. -/
def startsScript (v : Json) : Bool :=
  startsWith "javascript:".toList (lower (v.spelled.filter fun c => 0x20 < c.toNat))

/-- Null and the empty text are no values. -/
def isAbsent : Json → Bool
  | .null => true
  | .str s => s.isEmpty
  | _ => false

/-- Enters an attribute under its new name, if it may pass. -/
def admitRenamed (acc : OrderedMap Json) (renamed : String) (v : Json) :
    Except Fault (OrderedMap Json) :=
  if !isAllowed renamed then .ok acc
  else if urlAttributes.contains renamed && startsScript v then .ok acc
  else if renamed == "style" then do
    let styles ← styleOf v
    return if styles.isEmpty then acc else acc.insert "style" (.obj styles.entries)
  else .ok (acc.insert renamed v)

section

variable {m : Type → Type} [Monad m]

def sanitizeEntry (rename : String → m String) (acc : OrderedMap Json)
    (entry : String × Json) : ExceptT Fault m (OrderedMap Json) :=
  let (name, v) := entry
  if isAbsent v then pure acc
  else if isCustom name then pure (acc.insert name v)
  else do
    let renamed ← rename name
    MonadExcept.ofExcept (admitRenamed acc renamed v)

/-- Sanitizes with names renamed by `rename`, which is asked only where a name is needed. -/
def sanitizeVia (rename : String → m String) (attributes : OrderedMap Json) :
    ExceptT Fault m (OrderedMap Json) :=
  attributes.entries.foldlM (sanitizeEntry rename) .empty

end

def sanitize (attributes : OrderedMap Json) : Except Fault (OrderedMap Json) :=
  Id.run (sanitizeVia (fun name => pure (rename name)) attributes).run

end DesignComponents.Attribute
