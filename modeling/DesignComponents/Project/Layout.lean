import DesignComponents.Component.Config
import DesignComponents.Project.File

/-! Where the files of a project are, and which of them are what. -/

set_option autoImplicit false

namespace DesignComponents.Project

open Text Template Style

def pathOfComponent (framework : Framework) (name : String) (typed : Bool) : String :=
  match framework with
  | .vue => s!"src/components/{name}.vue"
  | .angular => s!"src/app/{Identifier.slug name}.component.ts"
  | .svelte => s!"src/components/{name}.svelte"
  | .html => "index.html"
  | .react => if typed then s!"src/components/{name}.tsx" else s!"src/components/{name}.jsx"

def pathOfStyle (name : String) (styling : Styling) : String :=
  s!"src/styles/{Identifier.slug name}.{styling.extension}"

def holds (path piece : String) : Bool := occurs piece.toList path.toList

def isTestPath (path : String) : Bool :=
  holds path "__tests__/" || holds path ".spec." || holds path ".test."

def isUnder (folder path : String) : Bool := startsWith folder.toList path.toList

def isComponent (file : GeneratedFile) : Bool :=
  (isUnder "src/components/" file.path || isUnder "src/app/" file.path) && !isTestPath file.path

/-- Whether a file holds neither styles nor settings. -/
def isMarkupOrScript (file : GeneratedFile) : Bool :=
  match file.language with
  | .css | .scss | .json => false
  | _ => true

/-- The file of the component itself: the first component file that declares no module, or else
the first that is markup or script. -/
def primary? (files : List GeneratedFile) : Option GeneratedFile :=
  (files.find? fun f => isComponent f && isMarkupOrScript f && !holds f.path ".module.").or
    (files.find? isMarkupOrScript)

structure Layout where
  root : String := "src"
  components : List String := []
  hooks : List String := []
  utils : List String := []
  types : List String := []
  styles : List String := []
  tests : List String := []
  assets : List String := []
  deriving DecidableEq, Repr, Inhabited

/-- The planned layout, with the components, styles and tests that there are. -/
def Layout.ofFiles (planned : Layout) (files : List GeneratedFile) : Layout :=
  let paths := files.map GeneratedFile.path
  { planned with
    components := (files.filter isComponent).map GeneratedFile.path
    styles := paths.filter (isUnder "src/styles/")
    tests := paths.filter isTestPath }

end DesignComponents.Project
