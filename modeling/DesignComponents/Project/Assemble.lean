import DesignComponents.Component.Basic
import DesignComponents.Project.Fallback
import DesignComponents.Project.Layout
import DesignComponents.Text.Entity

/-! A project made of a component: the component and style files come first, and of files with one
path the first stays. -/

set_option autoImplicit false

namespace DesignComponents.Project

open Text

/-- A page that shows the beginning of the component's code. -/
def preview (code : String) : String := unlines [
  "<!DOCTYPE html>",
  "<html>",
  "<head>",
  "    <title>Generated Component Preview</title>",
  "    <style>",
  "        body \x7b font-family: Arial, sans-serif; padding: 20px; \x7d",
  "        .preview \x7b border: 1px solid #ddd; padding: 20px; border-radius: 8px; \x7d",
  "    </style>",
  "</head>",
  "<body>",
  "    <div class=\"preview\">",
  "        <h2>Component Preview</h2>",
  "        <p>This is a preview of your generated component.</p>",
  "        <pre><code>" ++ String.ofList (Entity.escapeValue (code.toList.take 200)) ++
    "...</code></pre>",
  "    </div>",
  "</body>",
  "</html>"]

structure Assembled where
  files : List GeneratedFile
  layout : Layout
  preview : String

/-- The given text, unless it is blank. -/
def textOr (text usual : String) : String := if (trim text.toList).isEmpty then usual else text

/-- Configuration files, and the package file where there are packages. -/
def manifestEntries (manifest : Manifest) (name : String) : List (String × String) :=
  manifest.configFiles.entries ++
    if manifest.dependencies.isEmpty && manifest.devDependencies.isEmpty then []
    else [("package.json", manifest.packageFile (Identifier.slug name))]

/-- Of entries with one path the first stays. -/
def firstByPath (entries : List (String × String)) : OrderedMap String :=
  entries.foldl (fun m e => if m.contains e.1 then m else m.insert e.1 e.2) .empty

def assemble (c : Component) (planned : Layout) (config : Config) : Except Fault Assembled := do
  let name ← config.name
  let code := textOr c.code (Fallback.component c.framework name config.isTyped)
  let style := textOr c.style (Fallback.style name)
  let entries := [(pathOfComponent c.framework name config.isTyped, code),
    (pathOfStyle name config.style, style)] ++ c.additional.entries ++
    c.manifest.toList.flatMap fun m => manifestEntries m name
  let files := (firstByPath entries).entries.map fun (path, content) =>
    GeneratedFile.make path content
  pure { files, layout := planned.ofFiles files, preview := preview code }

end DesignComponents.Project
