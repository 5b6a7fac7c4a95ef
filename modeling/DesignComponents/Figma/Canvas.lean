import DesignComponents.Figma.Document
import DesignComponents.Json.Convert
import DesignComponents.Source.Node
import DesignComponents.Style.Property

/-! The drawing of a design file. Coordinates count from the least corner of all visible boxes; a
layer that is not visible is left out with all that is in it. It is drawn with doubles, but the
numbers it is drawn with are a parameter: what rounding blurs is said of exact ones. -/

set_option autoImplicit false

namespace DesignComponents.Figma

open Source (Bounds Element Node)

/-! ### Numbers -/

/-- The numbers that a drawing is made with: how they are read, calculated with and written. -/
structure Arithmetic (K : Type) where
  ofInt : Int → K
  read : Json → Except Fault K
  /-- Twice a number, which is doubled before it is read. -/
  twice : Number → Except Fault K
  add : K → K → K
  sub : K → K → K
  /-- The sum with a value. -/
  plus : K → Json → Except Fault K
  half : K → K
  lt : K → K → Bool
  /-- Six significant digits. -/
  text : K → List Char
  measure : Json → Except Fault String
  /-- The measure of a value to two places. -/
  hundredths : Json → Except Fault String
  isBelowOne : Json → Except Fault Bool
  /-- The whole part of 255 times a value. -/
  intensity : Json → Except Fault Int

/-- The whole part of 255 times a value; 255 times a text is the text that often. -/
def intensity (v : Json) : Except Fault Int :=
  match v with
  | .num (.real x) => Number.wholeBy Binary64.truncate? (x.mul (.ofInt 255))
  | .num (.int n) => pure (n * 255)
  | .bool b => pure (if b then 255 else 0)
  | .str s => (Json.str (String.join (List.replicate 255 s))).toInt
  | .arr items => (Json.arr items).toInt
  | v => throw (.notCombined "*" v.kindName "int")

namespace Arithmetic

def double : Arithmetic Binary64 where
  ofInt := .ofInt
  read := Json.toReal
  twice n := do (← (Number.int 2).mul n).toReal
  add := Binary64.add
  sub := Binary64.sub
  plus := Json.addReal
  half x := x.div (.ofInt 2)
  lt := Binary64.lt
  text := Decimal.measureText
  measure := Json.measure
  hundredths v := do (← v.roundTwo).measure
  isBelowOne := Json.isBelowOne
  intensity := Figma.intensity

end Arithmetic

variable {K : Type} (a : Arithmetic K)

/-! ### Boxes -/

structure Box (K : Type) where
  x : K
  y : K
  width : K
  height : K

def coordinate (box : Json) (key : String) : Except Fault K := do
  a.read ((← box.memberD key (.int 0)).orElse (.int 0))

/-- A layer's box, where it has one. -/
def boxOf (layer : Json) : Except Fault (Option (Box K)) := do
  let box ← layer.member "absoluteBoundingBox"
  if box.isTruthy then
    return some ⟨← coordinate a box "x", ← coordinate a box "y", ← coordinate a box "width",
      ← coordinate a box "height"⟩
  else return none

/-- A layer is visible unless it says otherwise; what is not an object cannot say. -/
def isVisible (layer : Json) : Except Fault Bool := do
  return (← layer.memberD "visible" (.bool true)).isTruthy

/-! ### The extent -/

/-- The keys of an object and the characters of a text are walked over and are no layers. -/
def walkText (hasAny : Bool) : Except Fault Unit :=
  if hasAny then .error (.noMember "str" "get") else .ok ()

mutual

/-- The boxes of a layer and of all visible layers in it. -/
def boxes : Json → Except Fault (List (Box K))
  | .obj members => do
    let own ← boxOf a (.obj members)
    let inner ← boxesInChildren members
    return own.toList ++ inner
  | v => .error (.noMember v.kindName "get")

def boxesInChildren : List (String × Json) → Except Fault (List (Box K))
  | [] => .ok []
  | (key, v) :: rest => if key == "children" then boxesInValue v else boxesInChildren rest

def boxesInValue : Json → Except Fault (List (Box K))
  | .arr items => boxesInItems items
  | .obj members => do
    walkText !members.isEmpty
    return []
  | .str s => do
    walkText !s.isEmpty
    return []
  | v => .error (.notIterable v.kindName)

def boxesInItems : List Json → Except Fault (List (Box K))
  | [] => .ok []
  | item :: rest => do
    if ← isVisible item then
      let own ← boxes item
      return own ++ (← boxesInItems rest)
    else boxesInItems rest

end

def boxesOfAll : List Json → Except Fault (List (Box K))
  | [] => .ok []
  | layer :: rest => do
    let own ← boxes a layer
    return own ++ (← boxesOfAll rest)

def least : List K → K
  | [] => a.ofInt 0
  | x :: xs => xs.foldl (fun m y => if a.lt y m then y else m) x

def greatest : List K → K
  | [] => a.ofInt 0
  | x :: xs => xs.foldl (fun m y => if a.lt m y then y else m) x

/-- Where coordinates count from, and the size of the drawing. -/
structure Extent (K : Type) where
  left : K
  top : K
  width : K
  height : K

/-- The room between the least and the greatest coordinate, and the padding of both sides. -/
def room (padding low high : K) : K := a.add (a.sub high low) padding

def extentOf (padding : Number) (all : List (Box K)) : Except Fault (Extent K) := do
  let pad ← a.read (.num padding)
  if all.isEmpty then
    let origin := a.sub (a.ofInt 0) pad
    return ⟨origin, origin, a.ofInt 400, a.ofInt 300⟩
  else
    let both ← a.twice padding
    let left := least a (all.map Box.x)
    let top := least a (all.map Box.y)
    return ⟨a.sub left pad, a.sub top pad,
      room a both left (greatest a (all.map fun b => a.add b.x b.width)),
      room a both top (greatest a (all.map fun b => a.add b.y b.height))⟩

/-! ### Paint -/

def channel (color : Json) (key : String) : Except Fault Int := do
  a.intensity (← color.memberD key (.int 0))

def hexOf (color : Json) : Except Fault String := do
  let r ← channel a color "r"
  let g ← channel a color "g"
  let b ← channel a color "b"
  return String.ofList (Style.hexOfRgb r g b)

def colorOf (paint : Json) : Except Fault Json := paint.memberD "color" (.obj [])

def isSolid (paint : Json) : Except Fault Bool := do
  return (← paint.member "type").isStr "SOLID"

abbrev Entries := List (String × Json)

/-- An opacity below one, as an attribute. -/
def opacityEntry (name : String) (alpha : Json) : Except Fault Entries := do
  if alpha.isNull then return []
  if ← a.isBelowOne alpha then return [(name, .str (← a.hundredths alpha))]
  return []

/-- The attributes of the first solid fill. -/
def fillEntries : List Json → Except Fault Entries
  | [] => .ok []
  | fill :: rest => do
    if ← isSolid fill then
      let color ← hexOf a (← colorOf fill)
      let alpha ← fill.memberD "opacity" (← (← colorOf fill).memberD "a" (.int 1))
      return ("fill", .str color) :: (← opacityEntry a "fill-opacity" alpha)
    else fillEntries rest

/-- The attributes of the first visible solid stroke. -/
def strokeEntries (layer : Json) : List Json → Except Fault Entries
  | [] => .ok []
  | stroke :: rest => do
    if (← isVisible stroke) && (← isSolid stroke) then
      let color ← hexOf a (← colorOf stroke)
      let weight ← a.measure (← layer.memberD "strokeWeight" (.int 1))
      return [("stroke", .str color), ("stroke-width", .str weight)]
    else strokeEntries layer rest

def visibleOf : List Json → Except Fault (List Json)
  | [] => .ok []
  | v :: rest => do
    if ← isVisible v then
      let others ← visibleOf rest
      return v :: others
    else visibleOf rest

/-! ### Layers -/

def measured (x : K) : Json := .str (String.ofList (a.text x))

/-- A layer's box with coordinates from the origin. -/
def Box.from (extent : Extent K) (b : Box K) : Box K :=
  ⟨a.sub b.x extent.left, a.sub b.y extent.top, b.width, b.height⟩

/-- Where a layer is drawn; one without a box lies at the origin. -/
def place (box : Option (Box K)) : Box K :=
  box.getD ⟨a.ofInt 0, a.ofInt 0, a.ofInt 0, a.ofInt 0⟩

def rectEntries (layer : Json) (b : Box K) : Except Fault Entries := do
  let radius ← layer.member "cornerRadius"
  let sides := [("x", measured a b.x), ("y", measured a b.y), ("width", measured a b.width),
    ("height", measured a b.height)]
  if radius.isTruthy then return sides ++ [("rx", .str (← a.measure radius))] else return sides

def ellipseEntries (b : Box K) : Entries := [
  ("cx", measured a (a.add b.x (a.half b.width))), ("cy", measured a (a.add b.y (a.half b.height))),
  ("rx", measured a (a.half b.width)), ("ry", measured a (a.half b.height))]

def lineEntries (b : Box K) : Entries := [
  ("x1", measured a b.x), ("y1", measured a b.y), ("x2", measured a (a.add b.x b.width)),
  ("y2", measured a (a.add b.y b.height))]

/-- The baseline of a text lies one font size below its top. -/
def textEntries (layer : Json) (b : Box K) : Except Fault Entries := do
  let style ← layer.memberD "style" (.obj [])
  let size ← style.memberD "fontSize" (.int 14)
  let baseline ← a.plus b.y size
  let sizeText ← a.measure size
  let family ← style.memberD "fontFamily" (.str "Inter")
  let weight ← style.member "fontWeight"
  let entries := [("x", measured a b.x), ("y", measured a baseline), ("font-size", Json.str sizeText),
    ("font-family", family)]
  if weight.isTruthy && !weight.same (.int 400) then
    return entries ++ [("font-weight", .str (← a.measure weight))]
  else return entries

/-- What a layer is drawn as; every type without a shape of its own is a group. -/
inductive LayerKind where
  | rectangle
  | ellipse
  | line
  | text
  | group
  deriving DecidableEq, Repr

def LayerKind.ofType (type : Json) : LayerKind :=
  match type with
  | .str "RECTANGLE" => .rectangle
  | .str "ELLIPSE" => .ellipse
  | .str "LINE" => .line
  | .str "TEXT" => .text
  | _ => .group

def LayerKind.tag : LayerKind → String
  | .rectangle => "rect"
  | .ellipse => "ellipse"
  | .line => "line"
  | .text => "text"
  | .group => "g"

def shapeEntries (kind : LayerKind) (layer : Json) (b : Box K) : Except Fault Entries :=
  match kind with
  | .rectangle => rectEntries a layer b
  | .ellipse => .ok (ellipseEntries a b)
  | .line => .ok (lineEntries a b)
  | .text => textEntries a layer b
  | .group => .ok []

/-- A layer as it is drawn, what is in it apart. -/
structure Figure (K : Type) where
  id : String
  kind : LayerKind
  type : Json
  name : Json
  text : Json
  box : Option (Box K)
  entries : Entries
  fills : List Json

/-- What a layer is before its children are drawn. -/
structure Drawn (K : Type) where
  kind : LayerKind
  type : Json
  box : Option (Box K)
  fills : List Json
  entries : Entries

def drawStart (extent : Extent K) (layer : Json) : Except Fault (Drawn K) := do
  let type ← layer.memberD "type" (.str "FRAME")
  let box := (← boxOf a layer).map (Box.from a extent)
  let fills ← visibleOf (← (← layer.memberD "fills" (.arr [])).elements)
  let fillPart ← fillEntries a fills
  let strokePart ← strokeEntries a layer (← (← layer.memberD "strokes" (.arr [])).elements)
  let kind := LayerKind.ofType type
  let shape ← shapeEntries a kind layer (place a box)
  return ⟨kind, type, box, fills, fillPart ++ strokePart ++ shape⟩

/-- The text of a text layer; other layers have none. -/
def textOf (kind : LayerKind) (layer : Json) : Except Fault Json :=
  match kind with
  | .text => return (← layer.member "characters").orElse (.str "")
  | _ => .ok .null

def drawEnd (layer : Json) (d : Drawn K) : Except Fault (Figure K) := do
  let text ← textOf d.kind layer
  let opacity ← opacityEntry a "opacity" (← layer.member "opacity")
  let id ← layer.memberD "id" (.str "")
  return {
    id := id.spelledText, kind := d.kind, type := d.type, name := ← layer.memberD "name" (.str "")
    text, box := d.box, entries := d.entries ++ opacity, fills := d.fills }

/-- A layer with those that are drawn in it. -/
inductive Drawing (K : Type) where
  | figure (data : Figure K) (children : List (Drawing K))

mutual

/-- A layer as it is drawn. Only a group draws what is in it. -/
def draw (extent : Extent K) : Json → Except Fault (Drawing K)
  | .obj members => do
    let start ← drawStart a extent (.obj members)
    let children ← (match start.kind with
      | .group => drawChildren extent members
      | _ => .ok [])
    return .figure (← drawEnd a (.obj members) start) children
  | v => .error (.noMember v.kindName "get")

def drawChildren (extent : Extent K) : List (String × Json) → Except Fault (List (Drawing K))
  | [] => .ok []
  | (key, v) :: rest => if key == "children" then drawValue extent v else drawChildren extent rest

def drawValue (extent : Extent K) : Json → Except Fault (List (Drawing K))
  | .arr items => drawItems extent items
  | .obj members => do
    walkText !members.isEmpty
    return []
  | .str s => do
    walkText !s.isEmpty
    return []
  | v => .error (.notIterable v.kindName)

def drawItems (extent : Extent K) : List Json → Except Fault (List (Drawing K))
  | [] => .ok []
  | item :: rest => do
    if ← isVisible item then
      let drawing ← draw extent item
      return drawing :: (← drawItems extent rest)
    else drawItems extent rest

end

def drawAll (extent : Extent K) : List Json → Except Fault (List (Drawing K))
  | [] => .ok []
  | layer :: rest => do
    let drawing ← draw a extent layer
    return drawing :: (← drawAll extent rest)

/-- A file as it is drawn. -/
structure Canvas (K : Type) where
  name : Json
  width : K
  height : K
  layers : List (Drawing K)

/-- The drawing of a file, padded on all sides. -/
def drawFile (padding : Number) (file : File) : Except Fault (Canvas K) := do
  let layers ← visibleOf file.children
  let extent ← extentOf a padding (← boxesOfAll a layers)
  return ⟨file.name.orElse (.str "Document"), extent.width, extent.height, ← drawAll a extent layers⟩

/-! ### As a tree -/

def Box.bounds (b : Box Binary64) : Bounds := ⟨.real b.x, .real b.y, .real b.width, .real b.height⟩

def Figure.element (f : Figure Binary64) : Element where
  id := f.id
  tag := f.kind.tag
  attributes := some (.ofList f.entries)
  text := f.text
  name := f.name
  nodeType := f.type
  bounds := f.box.map Box.bounds
  fills := f.fills

mutual

def Drawing.node : Drawing Binary64 → Node
  | .figure data children => .element data.element (nodes children)

def Drawing.nodes : List (Drawing Binary64) → List Node
  | [] => []
  | d :: rest => d.node :: nodes rest

end

namespace Canvas

def rootElement (c : Canvas Binary64) : Element :=
  let width := String.ofList (Decimal.measureText c.width)
  let height := String.ofList (Decimal.measureText c.height)
  { id := "root", tag := "svg"
    attributes := some (.ofList [
      ("width", .str width), ("height", .str height),
      ("viewBox", .str s!"0 0 {width} {height}"), ("xmlns", .str "http://www.w3.org/2000/svg")])
    name := c.name, nodeType := .str "DOCUMENT"
    bounds := some ⟨.real (.zero false), .real (.zero false), .real c.width, .real c.height⟩ }

def node (c : Canvas Binary64) : Node := .element c.rootElement (Drawing.nodes c.layers)

end Canvas

/-- The drawing of a file as a tree. -/
def canvas (padding : Number) (file : File) : Except Fault Node := do
  return (← drawFile .double padding file).node

end DesignComponents.Figma
