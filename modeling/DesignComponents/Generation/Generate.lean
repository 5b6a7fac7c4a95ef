import DesignComponents.Component.Adapt
import DesignComponents.Generation.Result
import DesignComponents.Intake.Read
import DesignComponents.Pattern.Analysis
import DesignComponents.Project.Assemble
import DesignComponents.Store
import DesignComponents.Style.Sheet
import DesignComponents.Target.Jsx

/-! Generating a component from a document, phase by phase, with a pause after each. -/

set_option autoImplicit false

namespace DesignComponents.Generation

structure Settings where
  intake : Intake.Settings := {}
  cache : StoreLimits := {}
  patterns : Pattern.Thresholds := {}
  quality : Project.Thresholds := {}
  useWorker : Bool := false
  workerTimeout : Number := .real (.ofInt 30)
  workers : Int := 1

def Settings.channel (s : Settings) : Intake.Channel :=
  if s.useWorker then .workers s.workerTimeout else .direct

/-- When a generation begins and ends: in milliseconds, and as it is written. -/
structure Moment where
  start : Number
  finish : Number
  timestamp : Timestamp

/-- Reading the document takes the percentages from ten to thirty. -/
def band (percent : Number) : Number :=
  let low := Binary64.ofInt 10
  let high := Binary64.ofInt 30
  let share := (percent.nearest.mul (high.sub low)).div (.ofInt 100)
  Number.min (.real (low.add share)) (.real (high.sub (.ofDecimal false 1 (-2))))

def reportBand : Intake.Reporter := fun percent label => Run.report (band percent) label

def enter (phase : Phase) (percent : Number) (label : String) : Run Unit := do
  Run.put (.enterPhase phase)
  Run.report percent label

def checkpoint : Run Unit := do
  Run.pause
  Run.check

/-- The name of an asset. -/
def assetName (asset : Json) : Except Fault String :=
  match asset with
  | .obj members =>
    match members.lookup "name" with
    | some v => .ok v.spelledText
    | none => .error (.missingKey "name")
  | v => .error (.notMapping v.kindName)

/-- The planned layout of a project. -/
def plan (interactions assets : List Json) (config : Config) : Except Fault Project.Layout := do
  let name ← config.name
  return {
    components := [if config.isTyped then s!"components/{name}.tsx" else s!"components/{name}.jsx"]
    hooks := if interactions.isEmpty then [] else ["useInteraction.ts"]
    utils := ["helpers.ts"]
    types := if config.isTyped then ["index.ts"] else []
    styles := [s!"styles/{Identifier.slug name}.{config.style.extension}"]
    tests := if config.hasTests then ["__tests__/"] else []
    assets := ← assets.mapM assetName }

structure Styled where
  jsx : List Char
  css : String

/-- The template and the style sheet of a target tree. -/
def styled (root : Target.Node) (config : Config) : Except Fault Styled := do
  let sheet := Style.Sheet.make (← config.name) config.style
  let (tree, sheet) ← (Style.Sheet.extract true root).run sheet
  let options : Target.RootOptions :=
    { passProps := config.passProps.isTruthy, renderChildren := config.renderChildren }
  return ⟨← tree.toJsx options 2, sheet.render⟩

/-- The logs of all steps: warnings on reading, what was dropped, and the build's own. -/
def logsOf (content : Intake.Content) (dropped : List String) (files : List GeneratedFile)
    (config : Config) : List Project.Log :=
  content.warnings.map (⟨.info, ·, "", 1⟩) ++ dropped.map (⟨.warn, ·, "", 1⟩) ++
    Project.buildLogs files config

/-- Advice on the design comes after advice on the code; nothing is advised twice. -/
def withSuggestions (q : Project.Assessment) (suggestions : List String) : Project.Assessment :=
  { q with recommendations := q.recommendations ++
      suggestions.filter fun s => !q.recommendations.contains s }

def generation (s : Settings) (id : String) (moment : Moment) (document : Json) (config : Config) :
    Run Generated := do
  enter .analyzing 10 "Analyzing design..."
  let content ← Intake.read s.intake s.channel reportBand document
  let raw := (content.figma.map Figma.File.toJson).getD .null
  let analysis := Pattern.analyze s.patterns content.tree raw
  checkpoint
  enter .planning 30 "Planning structure..."
  let planned ← Run.liftFault (plan analysis.interactions analysis.assets config)
  checkpoint
  enter .generating 50 "Generating components..."
  let transformed ← Run.liftFault (← Run.put (.transform content.tree))
  let styled ← Run.liftFault (styled transformed.root config)
  checkpoint
  enter .adapting 70 "Adapting framework..."
  let component ← Run.liftFault
    (Component.adapt (String.ofList styled.jsx) styled.css config)
  checkpoint
  enter .assessing 85 "Assessing quality..."
  let quality ← Run.liftFault (Project.assess s.quality component config)
  checkpoint
  enter .assembling 95 "Finalizing..."
  let assembled ← Run.liftFault (Project.assemble component planned config)
  let metrics ← Run.liftFault
    (Project.Measures.ofFiles assembled.files moment.start moment.finish)
  let logs := logsOf content transformed.warnings assembled.files config
  let result : Generated := {
    id, timestamp := moment.timestamp, config, files := assembled.files
    layout := assembled.layout, metrics
    quality := withSuggestions quality analysis.suggestions, preview := assembled.preview
    status := .ofLogs logs, logs, patterns := analysis.patterns }
  checkpoint
  return result

end DesignComponents.Generation
