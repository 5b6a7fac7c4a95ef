import DesignComponents.Component.Config
import DesignComponents.Json.Fields
import DesignComponents.Json.Spelling

/-! Settings as they are written by people: what looks wrong in them is warned of, and does no
harm. -/

set_option autoImplicit false

namespace DesignComponents.Settings

/-- The sections, with the names that each may hold. -/
def sections : List (String × List String) := [
  ("figma", ["fileKey", "personalAccessToken"]),
  ("generation", ["componentName", "framework", "memo", "optimization", "passProps",
    "renderChildren", "styling", "typescript", "unitTests"]),
  ("ingestion", ["largeFileThreshold", "maxChunkSize", "maxFileSize"]),
  ("cache", ["maxSize", "ttlSeconds"]),
  ("worker", ["enabled", "timeoutSeconds", "workers"]),
  ("export", ["outputDir"])]

def sectionNames : List String := ["cache", "export", "figma", "generation", "ingestion", "worker"]

def optimizationNames : List String := ["codeSplitting", "lazyLoading", "treeShaking"]

/-- The names that stand for numbers, by section. -/
def numericNames : List (String × List String) := [
  ("ingestion", ["maxFileSize", "largeFileThreshold", "maxChunkSize"]),
  ("cache", ["maxSize", "ttlSeconds"]),
  ("worker", ["timeoutSeconds", "workers"])]

def frameworkNames : List String := Template.Framework.all.map Template.Framework.name

def stylingNames : List String := Style.Styling.all.map Style.Styling.name

inductive Warning where
  | unknownSection (name : String)
  | unknownName (place name : String) (known : List String)
  | unknownFramework (given : String)
  | unknownStyling (given : String)
  | notNumber (place name kind : String)
  /-- A file of settings that holds something else. -/
  | noSettings (path : String)
  deriving DecidableEq, Repr

def listed (names : List String) : String := ", ".intercalate names

def Warning.text : Warning → String
  | .unknownSection name => s!"未知頂層欄位 '{name}'（已知欄位：{listed sectionNames}）"
  | .unknownName place name known => s!"[{place}] 未知欄位 '{name}'（已知欄位：{listed known}）"
  | .unknownFramework given =>
    s!"generation.framework '{given}' 不在已知值中（{listed frameworkNames}），將使用 react"
  | .unknownStyling given => s!"generation.styling '{given}' 不在已知值中（{listed stylingNames}）"
  | .notNumber place name kind => s!"{place}.{name} 應為數字，目前是 {kind}"
  | .noSettings path => s!"'{path}' 格式錯誤，應為 JSON 物件，回傳空設定。"

/-- The line that shows a warning. -/
def Warning.line (w : Warning) : String := s!"   ⚠️  [config] {w.text}\n"

def unknownSections (settings : Json) : List Warning :=
  (settings.names.filter (!sectionNames.contains ·)).map .unknownSection

/-- The names in a place that are not among those known there. -/
def unknownNames (place : String) (known : List String) (v : Json) : List Warning :=
  (v.names.filter (!known.contains ·)).map (.unknownName place · known)

/-- A value that is present has to be one of these texts. -/
def isOneOf (texts : List String) (v : Json) : Bool := !v.isTruthy || texts.any v.isStr

def isNumeric : Json → Bool
  | .null | .num _ => true
  | _ => false

def notNumbers (settings : Json) : List Warning :=
  numericNames.flatMap fun (place, names) =>
    (names.filter fun name => !isNumeric ((settings.field place).field name)).map fun name =>
      .notNumber place name ((settings.field place).field name).kindName

def choiceWarnings (generation : Json) : List Warning :=
  let framework := generation.field "framework"
  let styling := generation.field "styling"
  (if isOneOf frameworkNames framework then [] else [.unknownFramework framework.spelledText]) ++
    (if isOneOf stylingNames styling then [] else [.unknownStyling styling.spelledText])

def objectWarnings (settings : Json) : List Warning :=
  let generation := settings.field "generation"
  unknownSections settings ++
    (sections.flatMap fun (place, known) => unknownNames place known (settings.field place)) ++
    choiceWarnings generation ++
    unknownNames "generation.optimization" optimizationNames (generation.field "optimization") ++
    notNumbers settings

/-- Whether a value may be looked up among names. -/
def checkName : Json → Except Fault Unit
  | .arr _ => .error (.notHashable "list")
  | .obj _ => .error (.notHashable "dict")
  | _ => .ok ()

/-- What there is to warn of. Settings that are no object have no sections to look into. -/
def warnings (settings : Json) : Except Fault (List Warning) :=
  match settings with
  | .obj _ => .ok (objectWarnings settings)
  | v =>
    if v.isTruthy then do
      (← v.elements).forM checkName
      throw (.noMember v.kindName "get")
    else .ok []

end DesignComponents.Settings
