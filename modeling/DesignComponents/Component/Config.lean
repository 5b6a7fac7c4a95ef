import DesignComponents.Identifier
import DesignComponents.Json.Basic
import DesignComponents.Style.Sheet
import DesignComponents.Template.Framework

/-! What a component is to be like. Settings are values as they were given; each says here what
it means. -/

set_option autoImplicit false

namespace DesignComponents

open Template Style

structure Optimization where
  treeShaking : Bool := false
  codeSplitting : Bool := false
  lazyLoading : Bool := false
  deriving DecidableEq, Repr, Inhabited

def Optimization.count (o : Optimization) : Nat :=
  [o.treeShaking, o.codeSplitting, o.lazyLoading].countP id

structure Config where
  framework : Json := .str "react"
  typescript : Json := .bool true
  styling : Json := .str "css"
  componentName : Json := .str "GeneratedComponent"
  passProps : Json := .bool false
  renderChildren : Json := .bool false
  memo : Json := .bool false
  unitTests : Json := .bool false
  optimization : Optimization := {}
  deriving Repr, Inhabited

/-- The framework of that name; React where there is none. -/
def Template.Framework.ofSetting (v : Json) : Framework :=
  match v with
  | .str s => (named? s).getD .react
  | _ => .react

namespace Config

def target (c : Config) : Framework := .ofSetting c.framework

def isTyped (c : Config) : Bool := c.typescript.isTruthy

def hasTests (c : Config) : Bool := c.unitTests.isTruthy

def style (c : Config) : Styling := .ofSetting c.styling

/-- The component's name as an identifier. -/
def name (c : Config) : Except Fault String :=
  match c.componentName with
  | .str s => .ok (Identifier.componentName s)
  | v => if v.isTruthy then .error (.notText v.kindName) else .ok (Identifier.componentName "")

end Config

end DesignComponents
