import DesignComponents.Template.Framework
import DesignComponents.Template.StyleObject

/-! Component templates adjusted to a framework, in passes over the text: styles, classes,
events, the component's own properties and children, bound attributes, expressions, attribute
names, fragments. -/

set_option autoImplicit false

namespace DesignComponents.Template

open Text

def notBrace (c : Char) : Bool := c != '\x7b' && c != '\x7d'

/-- An expression in braces, without braces of its own. -/
def braced : Reader (List Char) := do
  Reader.char '\x7b'
  let expression ← Reader.many notBrace
  Reader.char '\x7d'
  pure expression

def quote (text : List Char) : List Char := '"' :: text ++ ['"']

def inBraces (text : List Char) : List Char := '\x7b' :: text ++ ['\x7d']

def writeStyle : Reader (List Char) := do
  let object ← styleObject
  pure ("style=".toList ++ quote (styleText object))

def plainClass : Reader (List Char) := do
  Reader.wordStart
  Reader.text "className=\""
  pure "class=\"".toList

def boundClassText (framework : Framework) (expression : List Char) : List Char :=
  match framework with
  | .vue => ":class=".toList ++ quote expression
  | .angular => "[class]=".toList ++ quote expression
  | .svelte => "class=".toList ++ inBraces expression
  | .html | .react => []

def boundClass (framework : Framework) : Reader (List Char) := do
  Reader.wordStart
  Reader.text "className="
  let expression ← braced
  pure (boundClassText framework (trim expression))

/-- A framework may have a name of its own for an event. -/
def eventName (framework : Framework) (name : List Char) : List Char :=
  match framework with
  | .vue => if name == "change".toList then "input".toList else name
  | _ => name

def eventText (framework : Framework) (name handler : List Char) : List Char :=
  match framework with
  | .vue => '@' :: name ++ '=' :: quote handler
  | .angular =>
    let call := if endsWith [')'] handler then handler else handler ++ "($event)".toList
    '(' :: name ++ ")=".toList ++ quote call
  | .svelte => "on:".toList ++ name ++ '=' :: inBraces handler
  | .html | .react => []

def event (framework : Framework) : Reader (List Char) := do
  Reader.wordStart
  Reader.text "on"
  let first ← Reader.one isAsciiUpper
  let others ← Reader.many isWord
  Reader.char '='
  let handler ← braced
  pure (eventText framework (eventName framework (lowerChar first ++ others)) (trim handler))

def spreadText : Framework → List Char
  | .vue => " v-bind=\"$attrs\"".toList
  | .svelte => " \x7b...$$restProps\x7d".toList
  | _ => []

def spread (framework : Framework) : Reader (List Char) := do
  let _ ← Reader.blanks
  Reader.text "\x7b...props\x7d"
  pure (spreadText framework)

/-- What stands where the component's children go. -/
def slotText : Framework → List Char
  | .vue | .svelte => "<slot />".toList
  | .angular => "<ng-content></ng-content>".toList
  | .html | .react => []

/-- Whether the text is in quotes of this kind, with none between. -/
def isQuotedIn (mark : Char) (text : List Char) : Bool :=
  Reader.accepts (do
    Reader.char mark
    let _ ← Reader.many (· != mark)
    Reader.char mark
    Reader.atLastEnd) text

def isLiteral (expression : List Char) : Bool :=
  Attribute.isNumeral expression || expression == "true".toList || expression == "false".toList ||
    isQuotedIn '\'' expression || isQuotedIn '"' expression

def literalText (expression : List Char) : List Char :=
  match expression with
  | '\'' :: rest | '"' :: rest => if endsWith (expression.take 1) expression then rest.dropLast
    else expression
  | _ => expression

/-- A literal becomes a plain attribute; any other expression is bound, where it can be. -/
def boundText (framework : Framework) (lead : Char) (name inner : List Char) : List Char :=
  let expression := trim inner
  if isLiteral expression then lead :: name ++ '=' :: quote (literalText expression)
  else match framework with
    | .vue => lead :: ':' :: name ++ '=' :: quote expression
    | .angular => lead :: "[attr.".toList ++ name ++ "]=".toList ++ quote expression
    | .svelte | .react => lead :: name ++ '=' :: inBraces inner
    | .html => []

def boundAttribute (framework : Framework) : Reader (List Char) := do
  let lead ← Reader.one isBlank
  let first ← Reader.one isAsciiLetter
  let others ← Reader.many fun c => isWord c || c == ':' || c == '-'
  Reader.char '='
  let inner ← braced
  pure (boundText framework lead (first :: others) inner)

def expressionText (framework : Framework) (inner : List Char) : List Char :=
  match framework with
  | .vue | .angular => "\x7b\x7b ".toList ++ trim inner ++ " \x7d\x7d".toList
  | .html => []
  | .svelte | .react => inBraces inner

def expression (framework : Framework) : Reader (List Char) := do
  let inner ← braced
  if inner.isEmpty then failure else pure (expressionText framework inner)

/-! ### Attribute names -/

/-- Attributes whose own names are in camel case. -/
def camelAttributes : List String := [
  "viewBox", "preserveAspectRatio", "gradientTransform", "gradientUnits", "patternUnits",
  "patternContentUnits", "spreadMethod", "stdDeviation", "baseFrequency", "numOctaves",
  "stitchTiles", "tableValues", "primitiveUnits", "filterUnits", "maskUnits", "filterRes",
  "markerWidth", "markerHeight", "refX", "refY", "pathLength", "textLength"]

/-- The name of an attribute in markup, from its name in camel case. -/
def markupName (name : List Char) : List Char :=
  if camelAttributes.contains (String.ofList name) then name
  else match dropPrefix? "xlink".toList name, dropPrefix? "xml".toList name with
    | some rest, _ => "xlink:".toList ++ lower rest
    | none, some rest => "xml:".toList ++ lower rest
    | none, none => Style.propertyChars name

def camelAttribute : Reader (List Char) := do
  let lead ← Reader.one isBlank
  let first ← Reader.many1 isAsciiLower
  let capital ← Reader.one isAsciiUpper
  let others ← Reader.many isWord
  Reader.char '='
  pure (lead :: markupName (first ++ capital :: others) ++ ['='])

/-- A start tag, its attribute names as markup has them. -/
def startTag : Reader (List Char) := do
  Reader.char '<'
  let first ← Reader.one fun c => c != '<' && c != '>' && c != '/' && c != '!'
  let others ← Reader.many fun c => c != '<' && c != '>'
  Reader.char '>'
  pure (substitute camelAttribute ('<' :: first :: others ++ ['>']))

/-! ### Fragments -/

def lineStart : Reader Unit := fun place =>
  match place.before with
  | none | some '\n' => some ((), place)
  | _ => none

/-- White space to the end of the text, or else through its last line break. -/
def restOfLine : Reader Unit := fun place =>
  let (blank, rest) := place.rest.span isBlank
  if rest.isEmpty then some ((), place.past blank [])
  else
    let (after, taken) := blank.reverse.span (· != '\n')
    if taken.isEmpty then none else some ((), place.past taken.reverse (after.reverse ++ rest))

/-- A fragment tag on lines of its own, with the white space before it. -/
def fragmentLine : Reader (List Char) := do
  lineStart
  let _ ← Reader.blanks
  let _ ← Reader.oneOf ["<>", "</>"]
  restOfLine
  pure []

def writeFragments (framework : Framework) (text : List Char) : List Char :=
  match framework with
  | .angular =>
    replaceAll "</>".toList "</ng-container>".toList
      (replaceAll "<>".toList "<ng-container>".toList text)
  | _ => substitute fragmentLine (replaceAll "<></>".toList [] text)

/-! ### The passes in order -/

/-- Attributes and expressions in the framework's own form. -/
def adjustBindings (framework : Framework) (text : List Char) : List Char :=
  substitute (expression framework) <| substitute (boundAttribute framework) <|
    replaceAll "\x7bchildren\x7d".toList (slotText framework) <|
    substitute (spread framework) <| substitute (event framework) <|
    substitute (boundClass framework) <| substitute plainClass <| substitute writeStyle text

/-- A template for React stays as it is. -/
def adjustFor (framework : Framework) (text : List Char) : List Char :=
  match framework with
  | .react => text
  | _ => writeFragments framework (substitute startTag (adjustBindings framework text))

end DesignComponents.Template
