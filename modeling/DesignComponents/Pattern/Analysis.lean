import DesignComponents.Pattern.Document
import DesignComponents.Pattern.Rules

/-! The analysis of a design: its patterns, what its document tells of components, interactions
and animations, and how complex it is. -/

set_option autoImplicit false

namespace DesignComponents.Pattern

open Source

structure Analysis where
  patterns : List Pattern := []
  components : List Json := []
  interactions : List Json := []
  animations : List Json := []
  assets : List Json := []
  suggestions : List String := []
  complexity : Binary64 := .ofInt 1

def plainComponent : Json :=
  .obj [("name", .str "GeneratedComponent"), ("type", .str "functional")]

def componentEntry (component : Json) : Except Fault Json := do
  return .obj [("name", (← component.member "name").orElse (.str "Component")),
    ("type", .str "functional"), ("description", ← component.memberD "description" (.str ""))]

/-- The values of an object. -/
def valuesOf (v : Json) : Except Fault (List Json) :=
  match v with
  | .obj members => .ok (members.map Prod.snd)
  | v => .error (.noMember v.kindName "values")

def componentsOf (raw : Json) : Except Fault (List Json) := do
  let components ← valuesOf (orObject (← (orObject raw).member "components"))
  if components.isEmpty then return [plainComponent]
  components.mapM componentEntry

/-- The items of a list that may be absent. -/
def itemsOf (v : Json) : Except Fault (List Json) := if v.isTruthy then v.elements else .ok []

def interaction (node reaction : Json) : Except Fault Json := do
  let action := orObject (← reaction.member "action")
  let kind ← action.memberD "type" (.str "unknown")
  let trigger ← (orObject (← reaction.member "trigger")).memberD "type" (.str "click")
  let destination ← action.member "destinationId"
  let target ← if destination.isTruthy then pure destination else action.member "destination"
  return .obj [("type", kind), ("trigger", trigger), ("target", target),
    ("node_id", ← node.memberD "id" (.str ""))]

def interactionsOf (nodes : List Members) : Except Fault (List Json) :=
  return (← nodes.mapM fun node => do
    (← itemsOf (← (Json.obj node).member "reactions")).mapM (interaction (.obj node))).flatten

def isAnimated (node : Members) : Bool :=
  [node.lookup "transitionNodeID", node.lookup "prototypeDevice"].any (·.any Json.isTruthy)

def animation (node : Members) : Json := .obj [
  ("type", .str "transition"), ("duration", (node.lookup "transitionDuration").getD (.int 300)),
  ("easing", (node.lookup "transitionEasing").getD (.str "ease"))]

def animationsOf (nodes : List Members) : List Json := (nodes.filter isAnimated).map animation

/-- The first eight parts of what an image is referred to by. -/
def shortRef (ref : Json) : Except Fault String :=
  match ref with
  | .str s => .ok (String.ofList (s.toList.take 8))
  | .arr items => .ok (Json.arr (items.take 8)).spelledText
  | .obj _ => .error (.notHashable "slice")
  | v => .error (.notIterable v.kindName)

def assetOf (e : Element) (fill : Json) : Except Fault (List Json) := do
  let ref ← fill.member "imageRef"
  if !((← fill.member "type").isStr "IMAGE" && ref.isTruthy) then return []
  return [.obj [("type", .str "image"), ("ref", ref), ("name", .str s!"image_{← shortRef ref}"),
    ("node_id", .str e.id)]]

def assetsOf (elements : List Element) : Except Fault (List Json) :=
  return (← elements.mapM fun e => return (← e.fills.mapM (assetOf e)).flatten).flatten

/-- Advice on the code, each piece once. -/
def codeAdvice (patterns : List Pattern) : List String :=
  (patterns.flatMap fun p => p.kind.codeAdvice).eraseDups

/-- The type by which an element is counted, or its tag; a list or an object cannot be counted. -/
def typeOf (e : Element) : Except Fault Json :=
  if !e.nodeType.isTruthy then .ok (.str e.tag)
  else match e.nodeType with
    | .arr _ | .obj _ => .error (.notHashable e.nodeType.kindName)
    | v => .ok v

def distinct (types : List Json) : List Json :=
  types.foldl (fun found v => if found.any (·.same v) then found else found ++ [v]) []

/-- A tenth for each element and a half for each type, from one to ten. -/
def complexityOf (elements : List Element) : Except Fault Binary64 := do
  let types := distinct (← elements.mapM typeOf)
  let share (n : Nat) (weight : Binary64) : Binary64 := (Binary64.ofInt n).mul weight
  let sum := ((Binary64.ofInt 1).add (share elements.length (.ofDecimal false 1 (-1)))).add
    (share types.length (.ofDecimal false 5 (-1)))
  return if (Binary64.ofInt 10).lt sum then .ofInt 10 else sum

def analyzeStrictly (t : Thresholds) (tree : Node) (raw : Json) : Except Fault Analysis := do
  let patterns ← ofTree t tree
  let elements := tree.elements.map Prod.fst
  let components ← componentsOf raw
  let nodes ← documentNodes raw
  return {
    patterns, components, interactions := ← interactionsOf nodes, animations := animationsOf nodes
    assets := ← assetsOf elements, suggestions := codeAdvice patterns
    complexity := ← complexityOf elements }

def plainAnalysis : Analysis where
  components := [plainComponent]
  suggestions := ["Consider adding responsive design", "Implement proper accessibility"]

/-- A design that cannot be analysed in full counts as a plain one. -/
def analyze (t : Thresholds) (tree : Node) (raw : Json) : Analysis :=
  match analyzeStrictly t tree raw with
  | .ok a => a
  | .error _ => plainAnalysis

end DesignComponents.Pattern
