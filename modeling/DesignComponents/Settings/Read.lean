import DesignComponents.Generation.Generate
import DesignComponents.Json.Convert
import DesignComponents.Settings.Check
import DesignComponents.Shell

/-! Settings as they are read from a file, and what they mean: for a component, for a generator, and
for asking for a file. -/

set_option autoImplicit false

namespace DesignComponents.Settings

/-! ### The file -/

def usualPath : String := "airis-codegen.config.json"

/-- The lines that show the warnings. -/
def warningLines (ws : List Warning) : String := String.join (ws.map Warning.line)

/-- The settings in a file. Where there is no file there are no settings. -/
def load (path : String) : Shell Json := do
  let tidied := Disk.Path.tidy path
  if !(← Shell.isThere tidied) then return .obj []
  match ← Shell.readJson tidied with
  | .obj members =>
    Shell.print (warningLines (← Shell.liftFault (warnings (.obj members))))
    return .obj members
  | _ =>
    Shell.print (Warning.noSettings path).line
    return .obj []

/-! ### The meaning -/

/-- A section; what is no object counts as an empty one. -/
def sectionOf (settings : Json) (name : String) : Except Fault Json := do
  match ← (settings.orElse (.obj [])).member name with
  | .obj members => pure (.obj members)
  | _ => pure (.obj [])

/-- What shows who asks for a file: from the settings, or else from what surrounds the program. -/
def token (settings : Json) (fallback : Option String) : Except Fault Json := do
  let given ← (← sectionOf settings "figma").member "personalAccessToken"
  return given.orElse ((fallback.map Json.str).getD .null)

def flag (v : Json) (name : String) (usual : Bool) : Except Fault Bool :=
  return (← v.memberD name (.bool usual)).isTruthy

def optimization (generation : Json) : Except Fault Optimization := do
  let v := (← generation.member "optimization").orElse (.obj [])
  return {
    treeShaking := ← flag v "treeShaking" false
    codeSplitting := ← flag v "codeSplitting" false
    lazyLoading := ← flag v "lazyLoading" false }

/-- A component's settings, before anything else is asked for. -/
def base (settings : Json) : Except Fault Config := do
  let g ← sectionOf settings "generation"
  let usual : Config := {}
  return {
    framework := ← g.memberD "framework" usual.framework
    typescript := .bool (← flag g "typescript" true)
    styling := ← g.memberD "styling" usual.styling
    componentName := ← g.memberD "componentName" usual.componentName
    passProps := .bool (← flag g "passProps" false)
    renderChildren := ← g.memberD "renderChildren" usual.renderChildren
    memo := .bool (← flag g "memo" false)
    unitTests := .bool (← flag g "unitTests" false)
    optimization := ← optimization g }

/-- Changes the setting of a name. -/
def change (c : Config) (name : String) (v : Json) : Except Fault Config :=
  match name with
  | "framework" => .ok { c with framework := v }
  | "typescript" => .ok { c with typescript := v }
  | "styling" => .ok { c with styling := v }
  | "component_name" => .ok { c with componentName := v }
  | "pass_props" => .ok { c with passProps := v }
  | "render_children" => .ok { c with renderChildren := v }
  | "memo" => .ok { c with memo := v }
  | "unit_tests" => .ok { c with unitTests := v }
  | _ => .error (.unknownSetting name)

/-- A component's settings, changed as is asked for; null asks for nothing. -/
def component (settings : Json) (asked : List (String × Json)) : Except Fault Config := do
  (asked.filter (!·.2.isNull)).foldlM (fun c (name, v) => change c name v) (← base settings)

def wholeNumber (v : Json) (name : String) (usual : Number) : Except Fault Int := do
  (← v.memberD name (.num usual)).toInt

def realNumber (v : Json) (name : String) (usual : Number) : Except Fault Number :=
  return .real (← (← v.memberD name (.num usual)).toReal)

def intake (v : Json) : Except Fault Intake.Settings := do
  let usual : Intake.Settings := {}
  return {
    maxFileSize := .int (← wholeNumber v "maxFileSize" usual.maxFileSize)
    largeFileThreshold := .int (← wholeNumber v "largeFileThreshold" usual.largeFileThreshold)
    maxChunkSize := .int (← wholeNumber v "maxChunkSize" usual.maxChunkSize) }

def cache (v : Json) : Except Fault StoreLimits := do
  let usual : StoreLimits := {}
  return {
    maxSize := .int (← wholeNumber v "maxSize" usual.maxSize)
    ttlSeconds := ← realNumber v "ttlSeconds" usual.ttlSeconds
    evictFraction := usual.evictFraction }

def generator (settings : Json) : Except Fault Generation.Settings := do
  let reading ← sectionOf settings "ingestion"
  let caching ← sectionOf settings "cache"
  let working ← sectionOf settings "worker"
  let usual : Generation.Settings := {}
  return {
    intake := ← intake reading
    cache := ← cache caching
    useWorker := ← flag working "enabled" false
    workerTimeout := ← realNumber working "timeoutSeconds" usual.workerTimeout
    workers := ← wholeNumber working "workers" (.int usual.workers) }

end DesignComponents.Settings
