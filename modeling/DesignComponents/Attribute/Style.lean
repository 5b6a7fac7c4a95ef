import DesignComponents.Identifier
import DesignComponents.Json.Spelling
import DesignComponents.Number.Reading
import DesignComponents.Text.Cut

/-! Style declarations written in an attribute, as a map from property names to values. -/

set_option autoImplicit false

namespace DesignComponents.Attribute

open Text

def numeral : Reader Unit := do
  let _ ← Reader.optional (Reader.char '-')
  let _ ← Reader.many1 isDecimal
  let _ ← Reader.optional do
    Reader.char '.'
    let _ ← Reader.many1 isDecimal
  Reader.atLastEnd

/-- Whether the text is a number without an exponent, in digits of any script. -/
def isNumeral (text : List Char) : Bool := Reader.accepts numeral text

/-- A number where the text is one. -/
def styleValue (text : List Char) : Except Fault Json :=
  let plain := Json.str (String.ofList text)
  if !isNumeral text then .ok plain
  else if text.contains '.' then .ok (((Number.readReal? text).map Json.real).getD plain)
  else Json.int <$> Number.readInt text

/-- The camel case name of a property; the vendor mark `-ms-` loses its hyphen first. -/
def styleKey (property : List Char) : List Char :=
  match dropPrefix? "-ms-".toList property with
  | some rest => Identifier.camelChars ("ms-".toList ++ rest)
  | none => Identifier.camelChars property

/-- A declaration with both a property and a value. -/
def declaration? (text : List Char) : Option (List Char × List Char) :=
  match breakAt? [':'] text with
  | none => none
  | some (property, value) =>
    let property := trim property
    let value := trim value
    if property.isEmpty || value.isEmpty then none else some (property, value)

def styleEntry (declaration : List Char × List Char) : Except Fault (String × Json) :=
  return (String.ofList (styleKey declaration.1), ← styleValue declaration.2)

def parseStyle (text : String) : Except Fault (OrderedMap Json) := do
  let declarations := (splitOn ';' text.toList).filterMap fun d => declaration? (trim d)
  return .ofList (← declarations.mapM styleEntry)

/-- A map of styles stands for itself, a text is read, and all else holds no style. -/
def styleOf (v : Json) : Except Fault (OrderedMap Json) :=
  match v with
  | .obj members => .ok (.ofList members)
  | .str s => parseStyle s
  | _ => .ok .empty

end DesignComponents.Attribute
