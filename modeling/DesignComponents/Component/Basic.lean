import DesignComponents.Component.Config
import DesignComponents.Component.Manifest
import DesignComponents.Template.Adjust
import DesignComponents.Text.Trim

/-! A component written for a framework: its code, its style sheet, and what comes with it. -/

set_option autoImplicit false

namespace DesignComponents

open Template

structure Component where
  framework : Framework
  code : String
  style : String
  additional : OrderedMap String := .empty
  manifest : Option Manifest := none

/-- A component made of the parts that are given. Texts that are missing are empty, and a missing
framework is the configuration's. -/
def Component.ofParts (config : Config) (framework code style : Option String)
    (additional : List (String × String)) (manifest : Option Manifest) : Component where
  framework := match framework with
    | some name => if name.isEmpty then config.target else .ofSetting (.str name)
    | none => config.target
  code := code.getD ""
  style := style.getD ""
  additional := .ofList additional
  manifest := manifest

namespace Component

/-- What a framework makes of a template. -/
structure Written where
  code : String
  additional : List (String × String) := []
  manifest : Manifest

/-- A style sheet without the white space at its end. -/
def trimmed (css : String) : String := String.ofList (Text.trimRight css.toList)

/-- A text with its lines moved in. -/
def indented (width : Nat) (text : String) : String := String.ofList (Text.indent width text.toList)

/-- A template adjusted to the framework, with its lines moved out. -/
def dedented (framework : Framework) (width : Nat) (template : String) : String :=
  String.ofList (Text.dedent width (adjustFor framework template.toList))

end Component

end DesignComponents
