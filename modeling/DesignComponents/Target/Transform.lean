import DesignComponents.Attribute.Memory
import DesignComponents.Source.Node
import DesignComponents.Target.Node

/-! From source tree to target tree. An element whose tag is not allowed is dropped with all that
is in it, and a warning tells so; everything else keeps its place. -/

set_option autoImplicit false

namespace DesignComponents.Target

open Attribute

def droppedWarning (data : Source.Element) : String :=
  let id := if data.id.isEmpty then "?" else data.id
  s!"Dropped disallowed element <{data.tag}> (id={id})"

section

variable {m : Type → Type} [Monad m]

mutual

/-- The node's counterpart, if it has one, and the warnings in document order. -/
def transformVia (rename : String → m String) :
    Source.Node → ExceptT Fault m (Option Node × List String)
  | .text content => pure (some (.text content), [])
  | .foreign => throw (.foreignNode "dict")
  | .fragment cs => do
    let (children, warnings) ← transformAllVia rename cs
    pure (some (.fragment children), warnings)
  | .element data cs =>
    if admitsTag data.tag then do
      let attributes ← sanitizeVia rename (data.attributes.getD .empty)
      let (children, warnings) ← transformAllVia rename cs
      pure (some (.node {
        tag := data.tag, attributes, text := data.text, sourceId := data.id, name := data.name }
        children), warnings)
    else pure (none, [droppedWarning data])

def transformAllVia (rename : String → m String) :
    List Source.Node → ExceptT Fault m (List Node × List String)
  | [] => pure ([], [])
  | n :: rest => do
    let (target, warnings) ← transformVia rename n
    let (targets, more) ← transformAllVia rename rest
    pure (target.toList ++ targets, warnings ++ more)

end

end

structure Transformed where
  root : Node
  warnings : List String

/-- A dropped root leaves an empty fragment. -/
def Transformed.ofResult (result : Option Node × List String) : Transformed :=
  ⟨result.1.getD (.fragment []), result.2⟩

def transform (n : Source.Node) : ExceptT Fault (StateM Memory) Transformed := do
  return .ofResult (← transformVia Memory.nameFor n)

end DesignComponents.Target
