import DesignComponents.Number.Basic
import DesignComponents.Style.Property

/-! Utility classes, one for each style declaration. -/

set_option autoImplicit false

namespace DesignComponents.Style

open Text

def fontWeights : List (Int × String) := [
  (100, "thin"), (200, "extralight"), (300, "light"), (400, "normal"), (500, "medium"),
  (600, "semibold"), (700, "bold"), (800, "extrabold"), (900, "black")]

/-- Spaces may not stand in a class. -/
def compact (text : List Char) : List Char := text.map fun c => if c == ' ' then '_' else c

def bracketed (stem : String) (inner : List Char) : List Char :=
  stem.toList ++ '[' :: inner ++ [']']

/-- The first family of a list, without quotes. -/
def firstFamily (text : List Char) : List Char :=
  let first := ((splitOn ',' text).head?).getD []
  compact (trimBy (fun c => c == '\'' || c == '"') (trim first))

def weightClass (weight : Int) : List Char :=
  "font-".toList ++
    match fontWeights.lookup weight with
    | some name => name.toList
    | none => bracketed "" (Decimal.ofInt weight)

/-- The class of one declaration; a property without a class of its own is written out. -/
def utility (property : String) (value : List Char) : Except Fault (List Char) :=
  match property with
  | "fill" => bracketed "fill-" <$> hexOf value
  | "stroke" => bracketed "stroke-" <$> hexOf value
  | "stroke-width" => .ok (bracketed "stroke-" ("length:".toList ++ compact value))
  | "font-size" => .ok (bracketed "text-" (compact value))
  | "font-family" => .ok (bracketed "font-" ('\'' :: firstFamily value ++ ['\'']))
  | "width" => .ok (bracketed "w-" (compact value))
  | "height" => .ok (bracketed "h-" (compact value))
  | _ =>
    let plain := bracketed "" (property.toList ++ ':' :: compact value)
    let number := if Attribute.isNumeral value then Number.readReal? value else none
    match property, number with
    | "opacity", some x => do
      let percent ← Number.wholeBy Binary64.round? (x.mul (.ofInt 100))
      pure ("opacity-".toList ++ Decimal.ofInt percent)
    | "font-weight", some x => do
      pure (weightClass (← Number.wholeBy Binary64.truncate? x))
    | "display", _ => .ok (if value == "block".toList then "block".toList else plain)
    | "max-width", _ => .ok (if value == "100%".toList then "max-w-full".toList else plain)
    | _, _ => .ok plain

def utilities (declarations : OrderedMap String) : Except Fault (List String) :=
  declarations.entries.mapM fun (property, value) =>
    String.ofList <$> utility property value.toList

end DesignComponents.Style
