import DesignComponents.Json.Basic
import DesignComponents.OrderedMap

/-! The tree that a design document is read into. -/

set_option autoImplicit false

namespace DesignComponents.Source

structure Bounds where
  x : Number
  y : Number
  width : Number
  height : Number
  deriving Repr

/-- What an element is, its children apart. The name, type, bounds and fills come from a design
document; for an element read from markup they are empty. Its name, type and text are kept as the
document gives them, whatever kind of value they are. -/
structure Element where
  id : String
  tag : String
  attributes : Option (OrderedMap Json) := some .empty
  text : Json := .null
  name : Json := .str ""
  nodeType : Json := .str ""
  bounds : Option Bounds := none
  fills : List Json := []
  deriving Repr, Inhabited

inductive Node where
  | element (data : Element) (children : List Node)
  | text (content : String)
  | fragment (children : List Node)
  /-- A value that stands in a tree and is no node. -/
  | foreign
  deriving Repr, Inhabited

namespace Node

def children : Node → List Node
  | .element _ cs | .fragment cs => cs
  | .text _ | .foreign => []

mutual

/-- The elements of a tree in document order, each before those inside it, with their children. -/
def elements : Node → List (Element × List Node)
  | .element data cs => (data, cs) :: elementsOf cs
  | .fragment cs => elementsOf cs
  | .text _ | .foreign => []

def elementsOf : List Node → List (Element × List Node)
  | [] => []
  | n :: rest => elements n ++ elementsOf rest

end

end Node

end DesignComponents.Source
