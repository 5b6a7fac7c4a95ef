import DesignComponents.Command.Document
import DesignComponents.Command.Save
import DesignComponents.Generator

/-! Generating a component and saving it, and telling what patterns are in a design. -/

set_option autoImplicit false

namespace DesignComponents.Command

open CommandLine

/-- What was given as a value. Nothing is an empty list. -/
def valueOf : Given → Json
  | .text s => .str s
  | .nothing => .arr []

def valueOrNull (g : Option Given) : Json := (g.map valueOf).getD .null

/-- A mark that is not set asks for nothing. -/
def trueOrNull (b : Bool) : Json := if b then .bool true else .null

/-- What is asked of a component, by the names of its settings. -/
def asked (c : Choices) : List (String × Json) := [
  ("framework", valueOrNull c.framework), ("styling", valueOrNull c.styling),
  ("typescript", (c.typescript.map Json.bool).getD .null), ("component_name", valueOrNull c.name),
  ("pass_props", trueOrNull c.passProps), ("render_children", trueOrNull c.renderChildren),
  ("memo", trueOrNull c.memo), ("unit_tests", trueOrNull c.unitTests)]

/-- A number with some decimals. -/
def decimals (places : Nat) (x : Binary64) : String := String.ofList (Decimal.fixedText places x)

/-- A text with spaces before it, to a width. -/
def padLeft (width : Nat) (s : String) : String :=
  String.ofList (List.replicate (width - s.length) ' ') ++ s

def padRight (width : Nat) (s : String) : String :=
  s ++ String.ofList (List.replicate (width - s.length) ' ')

def progressLine (p : Progress) : String :=
  let percent := padLeft 5 (decimals 1 p.percent.nearest)
  s!"   [{percent}%] {p.label}"

/-- The folder that a component is saved in. -/
def outputFolder (choices : Choices) (settings : Json) : Except Fault String := do
  match given? choices.output with
  | some folder => return folder
  | none =>
    let v ← (← settings.memberD "export" (.obj [])).member "outputDir"
    match v.orElse (.str "./generated") with
    | .str folder => return folder
    | v => throw (.notPath v.kindName)

def logLine (l : Project.Log) : String :=
  let place := if l.file.isEmpty then "" else s!" ({l.file})"
  s!"   ⚠️  {l.message}{place}"

def save (folder : String) (g : Generated) : Shell Unit := do
  let saved ← saveFiles folder (g.files.map fun f => (f.path, f.content))
  let _ ← savePreview folder g.preview
  let report ← saveReport folder g
  let count := toString saved.length
  let overall := decimals 1 g.quality.overall
  Shell.printLine s!"   ✅ Wrote {count} files to {folder}"
  Shell.printLine s!"   📊 Quality {overall}/100 · build {g.status.name}"
  (g.logs.filter (·.level != .info)).forM fun l => Shell.printLine (logLine l)
  Shell.printLine s!"   📄 Report saved to {report}"

/-- Generates a component, and saves it. -/
def perform (e : Generator) (document settings : Json) (choices : Choices) : Shell Generator := do
  let config ← Shell.liftFault (Settings.component settings (asked choices))
  let framework := config.framework.spelledText
  let name := config.componentName.spelledText
  Shell.printLine s!"🚀 Generating {framework} component '{name}'"
  let (moment, millisecond) ← Shell.put .clock
  let (o, e) := e.generate moment millisecond document config {}
  o.session.listener.heard.reverse.forM fun p => Shell.printLine (progressLine p)
  match o.result with
  | .ok g =>
    save (← Shell.liftFault (outputFolder choices settings)) g
    return e
  | .error (.failure f) =>
    Shell.printLine s!"   ❌ Generation failed: {f.userMessage}"
    return e
  | .error t => Shell.fail (.trouble t)

def generatorFor (settings : Json) : Shell Generator := do
  return .make (← Shell.liftFault (Settings.generator settings))

def generate (source : Source) (choices : Choices) (settings : Json) : Shell Unit := do
  let document ← document source settings
  if document.isNull then return
  let e ← generatorFor settings
  let _ ← perform e document settings choices

/-! ### Patterns -/

def insightLine (i : Pattern.Insight) : String :=
  s!"       [{i.severity.name}] {i.message}: {i.fix}"

def patternLines (p : Pattern) : List String :=
  let label := (p.nodeName.orElse (.str p.nodeId)).spelledText
  let kind := padRight 10 p.kind.name
  let confidence := decimals 2 p.confidence.nearest
  s!"   • {kind} {confidence}  {label}" :: p.insights.map insightLine

def analysisLines (a : Pattern.Analysis) : List String :=
  let count := toString a.patterns.length
  let complexity := decimals 1 a.complexity
  s!"🔎 {count} patterns · complexity {complexity}" :: a.patterns.flatMap patternLines ++
    a.suggestions.map (s!"   💡 {·}")

def tellPatterns (s : Generation.Settings) (content : Intake.Content) : Shell Unit := do
  let raw := (content.figma.map Figma.File.toJson).getD .null
  let analysis := Pattern.analyze s.patterns content.tree raw
  Shell.print (Text.unlines (content.warnings.map (s!"   ⚠️  {·}") ++ analysisLines analysis))

def analyze (source : Source) (settings : Json) : Shell Unit := do
  let document ← document source settings
  if document.isNull then return
  let s ← Shell.liftFault (Settings.generator settings)
  match (Intake.run s.intake .direct document {} {}).1 with
  | .ok content => tellPatterns s content
  | .error (.failure f) => Shell.printLine s!"❌ Analyze failed: {f.userMessage}"
  | .error t => Shell.fail (.trouble t)

end DesignComponents.Command
