import DesignComponents.Code.Scan

/-! Generated files, with what their texts import and export. -/

set_option autoImplicit false

namespace DesignComponents

open Text

inductive Language where
  | typescript
  | javascript
  | vue
  | svelte
  | css
  | scss
  | html
  | json
  | text
  /-- A language that a file was given by name. -/
  | other (name : String)
  deriving DecidableEq, Repr, Inhabited

namespace Language

def known : List Language := [typescript, javascript, vue, svelte, css, scss, html, json, text]

def name : Language → String
  | typescript => "typescript"
  | javascript => "javascript"
  | vue => "vue"
  | svelte => "svelte"
  | css => "css"
  | scss => "scss"
  | html => "html"
  | json => "json"
  | text => "text"
  | other name => name

def named (s : String) : Language := (known.find? fun l => l.name == s).getD (.other s)

/-- File endings; none is the end of another. -/
def endings : List (String × Language) := [
  (".ts", typescript), (".tsx", typescript), (".js", javascript), (".jsx", javascript),
  (".vue", vue), (".svelte", svelte), (".css", css), (".scss", scss), (".html", html),
  (".json", json)]

def ofPath (path : String) : Language :=
  match endings.find? fun e => endsWith e.1.toList path.toList with
  | some (_, language) => language
  | none => text

/-- Whether files of the language have imports and exports. -/
def isCode : Language → Bool
  | css | scss | json | text => false
  | _ => true

end Language

structure GeneratedFile where
  path : String
  name : String
  content : String
  language : Language
  size : Nat
  imports : List String := []
  exports : List String := []
  dependencies : List String := []
  deriving DecidableEq, Repr, Inhabited

namespace GeneratedFile

/-- The part of a path after its last slash. -/
def baseName (path : String) : String :=
  String.ofList (path.toList.reverse.takeWhile (· != '/')).reverse

/-- Whether what is imported is a package, and no path. -/
def isPackage (name : String) : Bool :=
  !startsWith ['.'] name.toList && !startsWith ['/'] name.toList

def make (path content : String) : GeneratedFile :=
  let language := Language.ofPath path
  let imports := if language.isCode then Code.imports content.toList else []
  { path, name := baseName path, content, language
    size := content.utf8ByteSize
    imports
    exports := if language.isCode then Code.exports content.toList else []
    dependencies := (imports.filter isPackage).eraseDups }

end GeneratedFile

end DesignComponents
