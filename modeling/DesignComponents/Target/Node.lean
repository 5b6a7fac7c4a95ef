import DesignComponents.Json.Basic
import DesignComponents.OrderedMap

/-! The tree that a component is written from. -/

set_option autoImplicit false

namespace DesignComponents.Target

inductive Kind where
  | element
  | text
  | fragment
  deriving DecidableEq, Repr, Inhabited

/-- What a node is, its children apart. -/
structure Data where
  kind : Kind := .element
  tag : String
  attributes : OrderedMap Json := .empty
  text : Json := .null
  sourceId : String := ""
  name : Json := .str ""
  deriving Repr, Inhabited

inductive Node where
  | node (data : Data) (children : List Node)
  deriving Repr, Inhabited

namespace Node

def data : Node → Data
  | .node d _ => d

def children : Node → List Node
  | .node _ cs => cs

def text (content : String) : Node :=
  .node { kind := .text, tag := "text", text := .str content } []

def fragment (children : List Node) : Node :=
  .node { kind := .fragment, tag := "fragment" } children

mutual

/-- How many nodes are elements. -/
def elementCount : Node → Nat
  | .node d cs => (if d.kind = .element then 1 else 0) + elementCountIn cs

def elementCountIn : List Node → Nat
  | [] => 0
  | n :: rest => elementCount n + elementCountIn rest

end

end Node

end DesignComponents.Target
