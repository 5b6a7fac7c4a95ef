import DesignComponents.Failure
import DesignComponents.Json.Basic

/-! Design files in the shapes in which they are exported, brought to one shape. -/

set_option autoImplicit false

namespace DesignComponents.Figma

/-- Where the document stands in the exported data. -/
inductive Shape where
  | direct
  | wrapped
  | complex
  | root
  deriving DecidableEq, Repr

def Shape.name : Shape → String
  | .direct => "direct"
  | .wrapped => "wrapped"
  | .complex => "complex"
  | .root => "root"

/-- A design file. The children are those of the document. -/
structure File where
  document : List (String × Json)
  children : List Json
  name : Json
  lastModified : Json
  components : Json
  shape : Shape

abbrev Members := List (String × Json)

def memberOf (members : Members) (key : String) : Json := (members.lookup key).getD .null

/-- A document is an object whose children are not null. -/
def document? (v : Json) : Option Members :=
  match v with
  | .obj members => if (memberOf members "children").isNull then none else some members
  | _ => none

def objectAt (members : Members) (key : String) : Option Members :=
  match memberOf members key with
  | .obj inner => some inner
  | _ => none

def documentIn (members : Members) : Option Members := document? (memberOf members "document")

/-- The document, what describes it, and where it was found. -/
def locate (data : Members) : Option (Members × Members × Shape) :=
  let direct := (documentIn data).map fun d => (d, data, Shape.direct)
  let wrapped := do
    let file ← objectAt data "file"
    let d ← documentIn file
    pure (d, file, Shape.wrapped)
  let complex := do
    let outer ← objectAt data "data"
    let file ← objectAt outer "file"
    let d ← documentIn file
    pure (d, file, Shape.complex)
  let root := match memberOf data "children" with
    | .arr items => some ([("children", Json.arr items)], data, Shape.root)
    | _ => none
  direct.or (wrapped.or (complex.or root))

def unrecognized (data : Members) : Failure :=
  let keys := (data.map Prod.fst).mergeSort (fun a b => decide (a ≤ b))
  let listed := ", ".intercalate keys
  let named := if listed.isEmpty then "none" else listed
  .validationSaying s!"Unable to normalize Figma data (top-level keys: {named})"
    "UNRECOGNIZED_DOCUMENT"
    "Unrecognized Figma document structure. Expected a Figma file JSON export."

def File.ofMembers (data : Members) : Except Failure File :=
  match locate data with
  | none => .error (unrecognized data)
  | some (doc, described, shape) =>
    match memberOf doc "children" with
    | .arr items => .ok {
        document := doc, children := items, name := memberOf described "name"
        lastModified := memberOf described "lastModified"
        components := (memberOf described "components").orElse (.obj []), shape }
    | _ => .error (.validation "Figma document children must be a list" "UNRECOGNIZED_DOCUMENT")

/-- An empty object holds no design, nor does a value that is no object. -/
def File.ofData (data : Json) : Except Failure File :=
  match data with
  | .obj (m :: ms) => File.ofMembers (m :: ms)
  | _ => .error (.validation "No Figma data provided" "EMPTY_INPUT")

/-- The file as one object again. -/
def File.toJson (f : File) : Json := .obj [
  ("document", .obj f.document), ("name", f.name), ("last_modified", f.lastModified),
  ("components", f.components), ("structure", .str f.shape.name)]

end DesignComponents.Figma
