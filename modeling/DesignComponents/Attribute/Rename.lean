import DesignComponents.Identifier
import DesignComponents.Text.Cut

/-! The name that an attribute of a drawing has in a component. -/

set_option autoImplicit false

namespace DesignComponents.Attribute

open Text

/-- The attributes whose name in a component is not made from their own. -/
def special : List (String × String) := [
  ("class", "className"), ("for", "htmlFor"), ("xlink:href", "xlinkHref"),
  ("xlink:actuate", "xlinkActuate"), ("xlink:arcrole", "xlinkArcrole"),
  ("xlink:role", "xlinkRole"), ("xlink:show", "xlinkShow"), ("xlink:title", "xlinkTitle"),
  ("xlink:type", "xlinkType"), ("xml:lang", "xmlLang"), ("xml:space", "xmlSpace"),
  ("xml:base", "xmlBase")]

def customStart : Reader Unit := do
  Reader.letters "data" <|> Reader.letters "aria"
  Reader.char '-'

/-- Data and accessibility attributes, which keep their names. -/
def isCustom (name : String) : Bool := Reader.accepts customStart name.toList

def namespaceStart : Reader Unit := do
  Reader.letters "xlink" <|> Reader.letters "xml"
  Reader.char ':'

def isNamespaced (name : String) : Bool := Reader.accepts namespaceStart name.toList

/-- A word, a colon and the first character of the next word, joined in camel case. -/
def colonJoint : Reader (List Char) := do
  let word ← Reader.many1 isWord
  Reader.char ':'
  let c ← Reader.one isWord
  pure (word ++ upperChar c)

/-- Joins the name over its first colon between words. -/
def dropNamespace (name : List Char) : List Char :=
  match first? colonJoint name with
  | some (passed, joined, next) => passed ++ joined ++ next.rest
  | none => name

def rename (name : String) : String :=
  if isCustom name then name
  else match special.lookup name with
    | some renamed => renamed
    | none =>
      if isNamespaced name then String.ofList (dropNamespace name.toList)
      else Identifier.camelCase name

end DesignComponents.Attribute
