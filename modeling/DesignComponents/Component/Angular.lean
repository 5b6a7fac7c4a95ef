import DesignComponents.Component.Basic
import DesignComponents.Component.Manifest

/-! Angular components, each with a module that declares it. -/

set_option autoImplicit false

namespace DesignComponents.Component.Angular

open Text

/-- In a template literal a backslash, a backtick and the opening of an interpolation are marked
with a backslash. -/
def literalText : List Char → List Char
  | [] => []
  | '$' :: '\x7b' :: rest => '\\' :: '$' :: '\x7b' :: literalText rest
  | c :: rest =>
    if c == '\\' || c == '\x60' then '\\' :: c :: literalText rest else c :: literalText rest

def template (jsx : String) : String :=
  indented 4 (String.ofList (literalText (dedented .angular 2 jsx).toList))

def code (jsx : String) (config : Config) (name : String) : String := unlines [
  "import \x7b Component, Input \x7d from '@angular/core';",
  "",
  "/**",
  s!" * {name} — generated from design.",
  " */",
  "@Component(\x7b",
  s!"  selector: 'app-{Identifier.slug name}',",
  "  template: \x60",
  template jsx,
  "  \x60,",
  s!"  styleUrls: ['../styles/{Identifier.slug name}.{config.style.extension}']",
  "\x7d)",
  s!"export class {name}Component \x7b",
  "  @Input() className: string = '';",
  "\x7d"]

def moduleCode (name : String) : String := unlines [
  "import \x7b NgModule \x7d from '@angular/core';",
  "import \x7b CommonModule \x7d from '@angular/common';",
  s!"import \x7b {name}Component \x7d from './{Identifier.slug name}.component';",
  "",
  "@NgModule(\x7b",
  s!"  declarations: [{name}Component],",
  "  imports: [CommonModule],",
  s!"  exports: [{name}Component]",
  "\x7d)",
  s!"export class {name}Module \x7b\x7d"]

def manifest : Manifest where
  name := "Angular"
  extension := ".component.ts"
  dependencies := ["@angular/core@^16.0.0", "@angular/common@^16.0.0"]
  devDependencies := ["@angular/cli@^16.0.0", "typescript@^5.0.0"]
  configFiles := .ofList [
    ("angular.json", ProjectFiles.angularWorkspace),
    ("tsconfig.json", ProjectFiles.angularTypes)]

def write (jsx : String) (config : Config) (name : String) : Written where
  code := code jsx config name
  additional := [(s!"src/app/{Identifier.slug name}.module.ts", moduleCode name)]
  manifest := manifest

end DesignComponents.Component.Angular
