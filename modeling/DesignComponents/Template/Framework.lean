import DesignComponents.Fault

/-! The frameworks that components are written for. -/

set_option autoImplicit false

namespace DesignComponents.Template

inductive Framework where
  | react
  | vue
  | angular
  | svelte
  | html
  deriving DecidableEq, Repr, Inhabited

namespace Framework

def all : List Framework := [react, vue, angular, svelte, html]

def name : Framework → String
  | react => "react"
  | vue => "vue"
  | angular => "angular"
  | svelte => "svelte"
  | html => "html"

def named? (s : String) : Option Framework := all.find? fun f => f.name == s

def named (s : String) : Except Fault Framework :=
  match named? s with
  | some f => .ok f
  | none => .error (.missingKey s)

end Framework

end DesignComponents.Template
