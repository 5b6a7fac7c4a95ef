import DesignComponents.Component.Angular
import DesignComponents.Component.MarkupFile
import DesignComponents.Component.React
import DesignComponents.Component.TestFile

/-! Components from templates: the framework's code, with what the styling and the tests need. -/

set_option autoImplicit false

namespace DesignComponents.Component

open Template Style

def write (framework : Framework) (jsx css : String) (config : Config) (name : String) : Written :=
  match framework with
  | .react => React.write jsx css config name
  | .vue => Vue.write jsx css config name
  | .angular => Angular.write jsx config name
  | .svelte => Svelte.write jsx css config name
  | .html => Html.write jsx config name

/-- What a styling adds to the project. -/
structure Extras where
  dependencies : List String := []
  devDependencies : List String := []
  configFiles : List (String × String) := []

def extrasOf : Styling → Extras
  | .styled => { dependencies := ["styled-components@^6.0.0"] }
  | .tailwind => {
      devDependencies := ["tailwindcss@^3.3.0", "postcss@^8.4.0", "autoprefixer@^10.4.0"]
      configFiles := [("tailwind.config.js", ProjectFiles.tailwind),
        ("postcss.config.js", ProjectFiles.postcss)] }
  | .scss => { devDependencies := ["sass@^1.64.0"] }
  | .css => {}

def adapt (jsx css : String) (config : Config) : Except Fault Component := do
  let name ← config.name
  let framework := config.target
  let written := write framework jsx css config name
  let extras := extrasOf config.style
  let test := if config.hasTests then TestFile.of? framework name config.isTyped else none
  let testPackages := (test.map TestFile.devDependencies).getD []
  pure {
    framework, code := written.code, style := css
    additional := .ofList (written.additional ++ test.toList.map fun t => (t.path, t.code))
    manifest := some { written.manifest with
      dependencies := written.manifest.dependencies ++ extras.dependencies
      devDependencies := written.manifest.devDependencies ++ extras.devDependencies ++ testPackages
      configFiles := written.manifest.configFiles.insertAll extras.configFiles } }

end DesignComponents.Component
