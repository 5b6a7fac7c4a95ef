import DesignComponents.Identifier
import DesignComponents.Style.Utility
import DesignComponents.Target.Node

/-! Style sheets: the styling of a tree is taken out of its elements and put under classes. -/

set_option autoImplicit false

namespace DesignComponents.Style

open Text Identifier Target

/-! ### Names of layers

The name of a layer may be any value in a design document. -/

/-- Upper case text: some letter has a case, and none is small. -/
def isUpperText (cs : List Char) : Bool :=
  cs.any isUpper && !cs.any (fun c => isLower c || (isCased c && !isUpper c))

def isLowerText (cs : List Char) : Bool :=
  cs.any isLower && !cs.any (fun c => isCased c && !isLower c)

def isDigitText (cs : List Char) : Bool := !cs.isEmpty && cs.all isDigit

def isAlphanumericText (cs : List Char) : Bool := !cs.isEmpty && cs.all isAlphanumeric

/-- The slug of texts in a row, each taken as one letter is in a plain name. In a map a text in
upper case asks for the one before it by number, which no map has. -/
def hyphenatePieces (inMap : Bool) (number : Nat) (before : Option (List Char)) :
    List Json → Except Fault (List Char)
  | [] => .ok []
  | .str s :: rest => do
    let cs := s.toList
    let upperHere := isUpperText cs && before.isSome
    if upperHere && inMap then throw (.missingNumber (number - 1))
    let mark := upperHere && before.any fun p => isLowerText p || isDigitText p
    let tail ← hyphenatePieces inMap (number + 1) (some cs) rest
    pure ((if mark then ['-'] else []) ++
      (if isAlphanumericText cs then lower cs else ['-']) ++ tail)
  | v :: _ => .error (.noMember v.kindName "isupper")

/-- The slug of a name; a value without elements has none. -/
def slugOf (name : Json) : Except Fault String :=
  match name with
  | .str s => .ok (slug s)
  | .arr items => do
    let cs ← hyphenatePieces false 0 none items
    pure (String.ofList (slugOfHyphenated cs))
  | .obj members => do
    let cs ← hyphenatePieces true 0 none (members.map fun m => .str m.1)
    pure (String.ofList (slugOfHyphenated cs))
  | v => .error (.notIterable v.kindName)

/-- What a node's class is built on: its name, or else its tag. -/
def layerBase (name : Json) (tag : String) : Except Fault String :=
  if name.isTruthy then slugOf name
  else .ok (if tag.isEmpty then "node" else slug tag)

/-! ### Sheets -/

/-- How styling is written; anything unknown is written as plain style sheets. -/
inductive Styling where
  | css
  | scss
  | tailwind
  | styled
  deriving DecidableEq, Repr, Inhabited

def Styling.all : List Styling := [.css, .scss, .tailwind, .styled]

def Styling.name : Styling → String
  | .css => "css"
  | .scss => "scss"
  | .tailwind => "tailwind"
  | .styled => "styled"

def Styling.ofSetting (v : Json) : Styling :=
  match v with
  | .str "scss" => .scss
  | .str "tailwind" => .tailwind
  | .str "styled" => .styled
  | _ => .css

/-- The file extension of a style sheet. -/
def Styling.extension : Styling → String
  | .scss => "scss"
  | _ => "css"

abbrev Declarations := OrderedMap String

/-- Attributes that are styling, with the property that each one is. -/
def presentation : List (String × String) := [
  ("fill", "fill"), ("fillOpacity", "fill-opacity"), ("fillRule", "fill-rule"),
  ("stroke", "stroke"), ("strokeWidth", "stroke-width"), ("strokeOpacity", "stroke-opacity"),
  ("strokeLinecap", "stroke-linecap"), ("strokeLinejoin", "stroke-linejoin"),
  ("strokeDasharray", "stroke-dasharray"), ("opacity", "opacity"), ("fontSize", "font-size"),
  ("fontFamily", "font-family"), ("fontWeight", "font-weight"), ("textAnchor", "text-anchor")]

def rootDeclarations : Declarations := .ofList [("display", "block"), ("max-width", "100%")]

structure Sheet where
  styling : Styling
  namer : Identifier.ClassPool
  rules : OrderedMap Declarations := .empty
  rootClass : String := ""

namespace Sheet

def make (componentName : String) (styling : Styling) : Sheet :=
  ⟨styling, { stem := Identifier.slug componentName }, .empty, ""⟩

/-- The declarations of an element, later ones overriding earlier: those of a root, its styling
attributes, its style map. -/
def declarationsOf (isRoot : Bool) (attributes : OrderedMap Json) : Declarations :=
  let start := if isRoot then rootDeclarations else .empty
  let fromAttributes := presentation.filterMap fun (name, prop) =>
    (attributes.get? name).map fun v => (prop, value prop v)
  let fromStyle := match attributes.get? "style" with
    | some (.obj members) => members.map fun (key, v) => (property key, value (property key) v)
    | _ => []
  (start.insertAll fromAttributes).insertAll fromStyle

/-- What is left of the attributes when the styling is taken out. -/
def withoutStyling (attributes : OrderedMap Json) : OrderedMap Json :=
  (presentation.foldl (fun a p => a.erase p.1) attributes).erase "style"

/-- The class attribute with more classes after those it has. -/
def addClasses (attributes : OrderedMap Json) (classes : List String) : OrderedMap Json :=
  let existing := match attributes.get? "className" with
    | some v => if v.isTruthy then [v.spelledText] else []
    | none => []
  attributes.insert "className" (.str (" ".intercalate (existing ++ classes)))

/-- A node without an id of its own shares its class with no other. -/
def classOf (namer : Identifier.ClassPool) (data : Data) :
    Except Fault (String × Identifier.ClassPool) :=
  if data.sourceId.isEmpty then do
    let base ← layerBase data.name data.tag
    let number := namer.counter + 1
    pure (Identifier.ClassPool.className namer.stem base number, { namer with counter := number })
  else match namer.used.get? data.sourceId with
    | some name => .ok (name, namer)
    | none => do
      let base ← layerBase data.name data.tag
      pure (namer.classOn data.sourceId base)

/-- Takes the styling out of one element. -/
def styleElement (isRoot : Bool) (data : Data) : StateT Sheet (Except Fault) Data := do
  let declarations := declarationsOf isRoot data.attributes
  let attributes := withoutStyling data.attributes
  if declarations.isEmpty then
    pure { data with attributes }
  else
    let sheet ← get
    let (name, namer) ← classOf sheet.namer data
    set { sheet with
      namer, rules := sheet.rules.insert name declarations
      rootClass := if isRoot then name else sheet.rootClass }
    let classes ← match sheet.styling with
      | .tailwind => utilities declarations
      | _ => pure [name]
    pure { data with attributes := addClasses attributes classes }

mutual

/-- Every element without an element around it is a root. -/
def extract (isRoot : Bool) : Node → StateT Sheet (Except Fault) Node
  | .node d cs => do
    if d.kind = .element then
      let d ← styleElement isRoot d
      return .node d (← extractAll false cs)
    else
      return .node d (← extractAll isRoot cs)

def extractAll (isRoot : Bool) : List Node → StateT Sheet (Except Fault) (List Node)
  | [] => pure []
  | n :: rest => do
    let n ← extract isRoot n
    return n :: (← extractAll isRoot rest)

end

/-! ### Output -/

def declarationLines (pad : String) (declarations : Declarations) : List String :=
  declarations.entries.map fun (property, value) => s!"{pad}{property}: {value};"

def block (name : String) (declarations : Declarations) : String :=
  "." ++ name ++ " \x7b\n" ++ "\n".intercalate (declarationLines "  " declarations) ++ "\n\x7d"

def css (s : Sheet) : String :=
  match s.rules.entries.filter (!·.2.isEmpty) with
  | [] => ""
  | rules => "\n\n".intercalate (rules.map fun (name, ds) => block name ds) ++ "\n"

def nestedLines (name : String) (declarations : Declarations) : List String :=
  ["", "  ." ++ name ++ " \x7b"] ++ declarationLines "    " declarations ++ ["  \x7d"]

/-- All rules nested in the root's; without a root there is nothing to nest them in. -/
def scss (s : Sheet) : String :=
  match s.rules.get? s.rootClass with
  | none => s.css
  | some root =>
    let others := s.rules.entries.filter fun (name, ds) => name != s.rootClass && !ds.isEmpty
    "\n".intercalate (["." ++ s.rootClass ++ " \x7b"] ++ declarationLines "  " root ++
      others.flatMap (fun (name, ds) => nestedLines name ds) ++ ["\x7d"]) ++ "\n"

def tailwindText : String := "@tailwind base;\n@tailwind components;\n@tailwind utilities;\n"

def render (s : Sheet) : String :=
  match s.styling with
  | .scss => s.scss
  | .tailwind => tailwindText
  | .css | .styled => s.css

end Sheet

end DesignComponents.Style
