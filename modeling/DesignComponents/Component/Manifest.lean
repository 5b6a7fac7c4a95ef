import DesignComponents.Json.Printer
import DesignComponents.OrderedMap
import DesignComponents.Text.Search

/-! What a component's project needs: packages and configuration files. -/

set_option autoImplicit false

namespace DesignComponents

open Text

structure Manifest where
  name : String
  extension : String
  dependencies : List String := []
  devDependencies : List String := []
  configFiles : OrderedMap String := .empty

namespace Manifest

/-- A package and its version, which stands after the last `@`. A name that starts with its only
`@` has no version. -/
def package (spec : String) : String × String :=
  let (version, name) := spec.toList.reverse.span (· != '@')
  if name.length ≤ 1 then (spec, "latest")
  else (String.ofList (name.drop 1).reverse, String.ofList version.reverse)

def packages (specs : List String) : Json :=
  .obj ((OrderedMap.ofList (specs.map package)).mapValues .str).entries

/-- The text of a project's package file. -/
def packageFile (m : Manifest) (project : String) : String :=
  let file := Json.obj [("name", .str project), ("version", .str "0.1.0"), ("private", .bool true),
    ("dependencies", packages m.dependencies), ("devDependencies", packages m.devDependencies)]
  file.print .asciiIndent ++ "\n"

end Manifest

/-! ### Configuration files -/

namespace ProjectFiles

open Text

def settings (v : Json) : String := v.print .settings ++ "\n"

def yes : Json := .bool true

def no : Json := .bool false

/-! ### Vite -/

/-- Where typed projects find what is imported from `@`. -/
def aliasLines : List String := [
  "  resolve: \x7b",
  "    alias: \x7b",
  "      '@': path.resolve(__dirname, './src'),",
  "    \x7d,",
  "  \x7d,"]

def vite (plugin package : String) (typed : Bool) : String := unlines <|
  ["import \x7b defineConfig \x7d from 'vite'"] ++
  (if typed then ["import path from 'path'"] else []) ++
  [s!"import {plugin} from '{package}'",
    "",
    "export default defineConfig(\x7b",
    s!"  plugins: [{plugin}()],"] ++
  (if typed then aliasLines else []) ++
  ["\x7d)"]

/-! ### Vue -/

def vueTypes : String := settings <| .obj [
  ("extends", .str "@vue/tsconfig/tsconfig.web.json"),
  ("include", .ofStrings ["env.d.ts", "src/**/*", "src/**/*.vue"]),
  ("compilerOptions", .obj [
    ("baseUrl", .str "."),
    ("paths", .obj [("@/*", .ofStrings ["./src/*"])])])]

/-! ### Angular -/

def angularBuild : Json := .obj [
  ("builder", .str "@angular-devkit/build-angular:browser"),
  ("options", .obj [
    ("outputPath", .str "dist/generated-app"),
    ("index", .str "src/index.html"),
    ("main", .str "src/main.ts"),
    ("polyfills", .str "src/polyfills.ts"),
    ("tsConfig", .str "tsconfig.app.json")])]

def angularWorkspace : String := settings <| .obj [
  ("$schema", .str "./node_modules/@angular/cli/lib/config/schema.json"),
  ("version", .int 1),
  ("newProjectRoot", .str "projects"),
  ("projects", .obj [
    ("generated-app", .obj [
      ("projectType", .str "application"),
      ("schematics", .obj []),
      ("root", .str ""),
      ("sourceRoot", .str "src"),
      ("prefix", .str "app"),
      ("architect", .obj [("build", angularBuild)])])])]

def angularTypes : String := settings <| .obj [
  ("compileOnSave", no),
  ("compilerOptions", .obj [
    ("baseUrl", .str "./"),
    ("outDir", .str "./dist/out-tsc"),
    ("forceConsistentCasingInFileNames", yes),
    ("strict", yes),
    ("noImplicitOverride", yes),
    ("noPropertyAccessFromIndexSignature", yes),
    ("noImplicitReturns", yes),
    ("noFallthroughCasesInSwitch", yes),
    ("sourceMap", yes),
    ("declaration", no),
    ("downlevelIteration", yes),
    ("experimentalDecorators", yes),
    ("moduleResolution", .str "node"),
    ("importHelpers", yes),
    ("target", .str "ES2022"),
    ("module", .str "ES2022"),
    ("useDefineForClassFields", no),
    ("lib", .ofStrings ["ES2022", "dom"])])]

/-! ### Svelte -/

def svelteTypes : String := settings <| .obj [
  ("extends", .str "./.svelte-kit/tsconfig.json"),
  ("compilerOptions", .obj [
    ("allowJs", yes),
    ("checkJs", yes),
    ("esModuleInterop", yes),
    ("forceConsistentCasingInFileNames", yes),
    ("resolveJsonModule", yes),
    ("skipLibCheck", yes),
    ("sourceMap", yes),
    ("strict", yes)])]

def svelteVite : String := unlines [
  "import \x7b sveltekit \x7d from '@sveltejs/kit/vite';",
  "import \x7b defineConfig \x7d from 'vite';",
  "",
  "export default defineConfig(\x7b",
  "  plugins: [sveltekit()]",
  "\x7d);"]

def svelteKit (typed : Bool) : String := unlines <| [
  "import adapter from '@sveltejs/adapter-auto';",
  "",
  "const config = \x7b",
  "  kit: \x7b",
  "    adapter: adapter()"] ++
  (if typed then ["  \x7d,", "  preprocess: \x7b", "    typescript: true", "  \x7d"]
    else ["  \x7d"]) ++
  ["\x7d;", "", "export default config;"]

/-! ### Styling -/

def tailwind : String := unlines [
  "/** @type \x7bimport('tailwindcss').Config\x7d */",
  "export default \x7b",
  "  content: ['./index.html', './src/**/*.\x7bjs,ts,jsx,tsx,vue,svelte,html\x7d'],",
  "  theme: \x7b",
  "    extend: \x7b\x7d,",
  "  \x7d,",
  "  plugins: [],",
  "\x7d;"]

def postcss : String := unlines [
  "export default \x7b",
  "  plugins: \x7b",
  "    tailwindcss: \x7b\x7d,",
  "    autoprefixer: \x7b\x7d,",
  "  \x7d,",
  "\x7d;"]

end ProjectFiles

end DesignComponents
