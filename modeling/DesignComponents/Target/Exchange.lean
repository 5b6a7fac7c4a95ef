import DesignComponents.Json.Fields
import DesignComponents.Target.Node

/-! Target trees as JSON values. -/

set_option autoImplicit false

namespace DesignComponents.Target

def Kind.name : Kind → String
  | .element => "element"
  | .text => "text"
  | .fragment => "fragment"

/-- The kind of that name; an element where there is none. -/
def Kind.named : String → Kind
  | "text" => .text
  | "fragment" => .fragment
  | _ => .element

/-- What a node is, with the JSON values of its children. -/
def Data.toJson (d : Data) (children : List Json) : Json := .obj [
  ("kind", .str d.kind.name), ("tag", .str d.tag), ("attributes", Json.orderedMap d.attributes),
  ("children", .arr children), ("text", d.text), ("source_id", .str d.sourceId), ("name", d.name)]

/-- A node from its fields. One that is missing leaves a plain group. -/
def Data.ofJson (v : Json) : Data where
  kind := .named (v.field "kind").toStr
  tag := (v.fieldD "tag" (.str "g")).toStr
  attributes := (v.field "attributes").toOrderedMap
  text := v.field "text"
  sourceId := (v.field "source_id").toStr
  name := v.fieldD "name" (.str "")

namespace Node

mutual

def toJson : Node → Json
  | .node d cs => d.toJson (toJsons cs)

def toJsons : List Node → List Json
  | [] => []
  | n :: rest => toJson n :: toJsons rest

end

def ofJson (v : Json) : Node :=
  .node (.ofJson v) ((v.field "children").toItems.attach.map fun ⟨c, _⟩ => ofJson c)
termination_by sizeOf v
decreasing_by exact Json.sizeOf_field_items ‹_›

end Node

end DesignComponents.Target
