import DesignComponents.Json.Fields
import DesignComponents.Source.Node

/-! Source trees as JSON values. -/

set_option autoImplicit false

namespace DesignComponents.Source

def Bounds.toJson (b : Bounds) : Json := .arr [.num b.x, .num b.y, .num b.width, .num b.height]

def Bounds.ofJson? : Json → Option Bounds
  | .arr [x, y, w, h] => some ⟨x.toNumber, y.toNumber, w.toNumber, h.toNumber⟩
  | _ => none

/-- What an element is, with the JSON values of its children. -/
def Element.toJson (e : Element) (children : List Json) : Json := .obj [
  ("kind", .str "element"), ("id", .str e.id), ("tag", .str e.tag),
  ("attributes", (e.attributes.map Json.orderedMap).getD .null), ("children", .arr children),
  ("text", e.text), ("name", e.name), ("node_type", e.nodeType),
  ("bounds", (e.bounds.map Bounds.toJson).getD .null), ("fills", .arr e.fills)]

/-- An element from its fields. One that is missing leaves a plain group. -/
def Element.ofJson (v : Json) : Element where
  id := (v.field "id").toStr
  tag := (v.fieldD "tag" (.str "g")).toStr
  attributes :=
    if (v.fieldD "attributes" (.arr [])).isNull then none
    else some (v.field "attributes").toOrderedMap
  text := v.field "text"
  name := v.fieldD "name" (.str "")
  nodeType := v.fieldD "node_type" (.str "")
  bounds := Bounds.ofJson? (v.field "bounds")
  fills := (v.field "fills").toItems

namespace Node

mutual

def toJson : Node → Json
  | .text content => .obj [("kind", .str "text"), ("text", .str content)]
  | .fragment cs => .obj [("kind", .str "fragment"), ("children", .arr (toJsons cs))]
  | .foreign => .obj [("kind", .str "other")]
  | .element e cs => e.toJson (toJsons cs)

def toJsons : List Node → List Json
  | [] => []
  | n :: rest => toJson n :: toJsons rest

end

def ofJson (v : Json) : Node :=
  let children := (v.field "children").toItems.attach.map fun ⟨c, _⟩ => ofJson c
  match (v.fieldD "kind" (.str "element")).toStr with
  | "text" => .text (v.field "text").toStr
  | "fragment" => .fragment children
  | "element" => .element (.ofJson v) children
  | _ => .foreign
termination_by sizeOf v
decreasing_by exact Json.sizeOf_field_items ‹_›

end Node

end DesignComponents.Source
