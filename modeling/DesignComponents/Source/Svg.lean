import DesignComponents.Json.Spelling
import DesignComponents.Source.Node
import DesignComponents.Text.Entity

/-! A source tree written as markup text. -/

set_option autoImplicit false

namespace DesignComponents.Source

open Text

/-- A map is no attribute value; all else is written as text in double quotes. -/
def writeAttribute (entry : String × Json) : List Char :=
  match entry with
  | (_, .obj _) => []
  | (name, v) => ' ' :: name.toList ++ "=\"".toList ++ Entity.escapeValue v.spelled ++ ['"']

def writeAttributes (attributes : OrderedMap Json) : List Char :=
  attributes.entries.flatMap writeAttribute

/-- The element's own text, where it has one. -/
def ownText (data : Element) : List Char :=
  match data.text with
  | .str s => Entity.escapeText s.toList
  | _ => []

/-- An element without content is written as one tag. -/
def writeElement (tag : String) (attributes inner : List Char) : List Char :=
  let start := '<' :: tag.toList ++ attributes
  if inner.isEmpty then start ++ "/>".toList
  else start ++ '>' :: inner ++ "</".toList ++ tag.toList ++ ['>']

namespace Node

mutual

def write : Node → List Char
  | .text content => Entity.escapeText content.toList
  | .fragment cs => writeAll cs
  | .foreign => []
  | .element data cs =>
    writeElement data.tag (writeAttributes (data.attributes.getD .empty))
      (ownText data ++ writeAll cs)

def writeAll : List Node → List Char
  | [] => []
  | n :: rest => write n ++ writeAll rest

end

/-- What keeps an element from being written: it has no attributes, or its text is no text. -/
def elementFault? (data : Element) : Option Fault :=
  match data.attributes, data.text with
  | none, _ => some (.noMember "NoneType" "items")
  | some _, .str _ => none
  | some _, v => if v.isTruthy then some (.noMember v.kindName "replace") else none

mutual

/-- The first thing that keeps a tree from being written. -/
def writeFault? : Node → Option Fault
  | .text _ => none
  | .fragment cs => writeFaultIn? cs
  | .foreign => some (.noMember "dict" "attributes")
  | .element data cs => (elementFault? data).or (writeFaultIn? cs)

def writeFaultIn? : List Node → Option Fault
  | [] => none
  | n :: rest => (writeFault? n).or (writeFaultIn? rest)

end

/-- The markup of a tree, unless something keeps it from being written. -/
def toSvg (n : Node) : Except Fault (List Char) :=
  match n.writeFault? with
  | some f => .error f
  | none => .ok n.write

end Node

end DesignComponents.Source
