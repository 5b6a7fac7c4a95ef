import DesignComponents.Json.Spelling
import DesignComponents.Number.Reading
import DesignComponents.Source.Node
import DesignComponents.Text.LetterCase
import DesignComponents.Text.Search
import DesignComponents.Text.Trim

/-! What a node of a design shows: its name, whether it is filled, how large it is, and what is in
it. An element without a table of attributes cannot be asked for one. -/

set_option autoImplicit false

namespace DesignComponents.Pattern

open Source Text

def attributesOf (e : Element) : Except Fault (OrderedMap Json) :=
  match e.attributes with
  | some a => .ok a
  | none => .error (.noMember "NoneType" "get")

/-- The first of these attributes that counts as present. -/
def firstPresent (attributes : OrderedMap Json) : List String → Json
  | [] => .str ""
  | name :: names =>
    match attributes.get? name with
    | some v => if v.isTruthy then v else firstPresent attributes names
    | none => firstPresent attributes names

/-- The name of an element in small letters; its attributes are asked only if it has none. -/
def nameOf (e : Element) : Except Fault (List Char) := do
  let name ← if e.name.isTruthy then pure e.name
    else (firstPresent · ["data-name", "id", "aria-label"]) <$> attributesOf e
  pure (lower name.spelled)

def holdsWord (name : List Char) (word : String) : Bool := occurs word.toList name

def isFillStyle (style : Json) : Bool :=
  match style with
  | .obj members => ["fill", "background", "backgroundColor"].any fun k => (members.lookup k).isSome
  | .str s => holdsWord (s.toList.filter (· != ' ')) "fill:" || holdsWord s.toList "background"
  | _ => false

def isFillValue (fill : Json) : Bool := fill.isTruthy && lower fill.spelled != "none".toList

def isFilled (e : Element) : Except Fault Bool := do
  if !e.fills.isEmpty then return true
  let attributes ← attributesOf e
  if (attributes.get? "fill").any isFillValue then return true
  return (attributes.get? "style").any isFillStyle

/-! ### Size -/

/-- A length as a number, with or without its unit `px`. -/
def lengthOf (v : Option Json) : Option Binary64 := do
  Number.readReal? (replaceAll "px".toList [] (← v).spelled)

/-- A missing coordinate is zero, and zero has no sign. -/
def coordinateOf (v : Option Json) : Number :=
  match lengthOf v with
  | some x => .real (if x.isZero then .zero false else x)
  | none => .real (.zero false)

/-- The box of an element: its own, or the one that its attributes give. -/
def boundsOf (e : Element) : Except Fault (Option Bounds) := do
  if let some b := e.bounds then return some b
  let attributes ← attributesOf e
  match lengthOf (attributes.get? "width"), lengthOf (attributes.get? "height") with
  | some width, some height => return some {
      x := coordinateOf (attributes.get? "x"), y := coordinateOf (attributes.get? "y")
      width := .real width, height := .real height }
  | _, _ => return none

/-! ### Content -/

def isText : Node → Bool
  | .text content => !(trim content.toList).isEmpty
  | .element e _ => e.nodeType.isStr "TEXT" || e.tag == "text" || e.tag == "tspan"
  | .fragment _ | .foreign => false

def elementOf? : Node → Option Element
  | .element e _ => some e
  | _ => none

/-- The elements among the children, those in a fragment among them counted too. -/
def elementsAmong (children : List Node) : List Element :=
  children.flatMap fun
    | .element e _ => [e]
    | .fragment cs => cs.filterMap elementOf?
    | _ => []

end DesignComponents.Pattern
