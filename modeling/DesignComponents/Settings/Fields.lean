import DesignComponents.Generation.Generate
import DesignComponents.Json.Fields

/-! Settings given as an object, by the names of their fields. A field that is missing keeps its
usual value. -/

set_option autoImplicit false

namespace DesignComponents

open Json

/-- A number among the fields of an object. -/
def Json.numberField (v : Json) (key : String) (usual : Number) : Number :=
  ((v.field? key).map toNumber).getD usual

def Json.wholeField (v : Json) (key : String) (usual : Int) : Int :=
  ((v.field? key).map toWhole).getD usual

def Json.textsField (v : Json) (key : String) (usual : List String) : List String :=
  ((v.field? key).map toStrs).getD usual

def Optimization.ofFields (v : Json) : Optimization where
  treeShaking := (v.field "tree_shaking").isTruthy
  codeSplitting := (v.field "code_splitting").isTruthy
  lazyLoading := (v.field "lazy_loading").isTruthy

def Config.ofFields (v : Json) : Config :=
  let usual : Config := {}
  { framework := v.fieldD "framework" usual.framework
    typescript := v.fieldD "typescript" usual.typescript
    styling := v.fieldD "styling" usual.styling
    componentName := v.fieldD "component_name" usual.componentName
    passProps := v.fieldD "pass_props" usual.passProps
    renderChildren := v.fieldD "render_children" usual.renderChildren
    memo := v.fieldD "memo" usual.memo
    unitTests := v.fieldD "unit_tests" usual.unitTests
    optimization := .ofFields (v.field "optimization") }

def Pattern.Thresholds.ofFields (v : Json) : Pattern.Thresholds :=
  let usual : Pattern.Thresholds := {}
  { cardConfidence := v.numberField "card_confidence" usual.cardConfidence
    buttonConfidence := v.numberField "button_confidence" usual.buttonConfidence
    formConfidence := v.numberField "form_confidence" usual.formConfidence
    navigationConfidence := v.numberField "navigation_confidence" usual.navigationConfidence
    buttonMinWidth := v.numberField "button_min_width" usual.buttonMinWidth
    buttonMaxWidth := v.numberField "button_max_width" usual.buttonMaxWidth
    buttonMinHeight := v.numberField "button_min_height" usual.buttonMinHeight
    buttonMaxHeight := v.numberField "button_max_height" usual.buttonMaxHeight
    touchTarget := v.numberField "touch_target" usual.touchTarget
    linearTolerance := v.numberField "linear_tolerance" usual.linearTolerance
    navigationMinItems := v.numberField "navigation_min_items" usual.navigationMinItems
    cardTypes := v.textsField "card_container_types" usual.cardTypes
    cardTags := v.textsField "card_container_tags" usual.cardTags }

def Project.Thresholds.ofFields (v : Json) : Project.Thresholds :=
  let usual : Project.Thresholds := {}
  { visual := v.numberField "visual_score" usual.visual
    codeBase := v.numberField "code_base" usual.codeBase
    codeTyped := v.numberField "code_typed_bonus" usual.codeTyped
    codeDeclaration := v.numberField "code_declaration_bonus" usual.codeDeclaration
    codeComment := v.numberField "code_comment_bonus" usual.codeComment
    performanceBase := v.numberField "performance_base" usual.performanceBase
    performanceFlag := v.numberField "performance_flag_bonus" usual.performanceFlag
    accessibilityPresent := v.numberField "accessibility_present" usual.accessibilityPresent
    accessibilityMissing := v.numberField "accessibility_missing" usual.accessibilityMissing
    maintainabilityComments :=
      v.numberField "maintainability_comments" usual.maintainabilityComments
    maintainabilityTyped := v.numberField "maintainability_typed" usual.maintainabilityTyped
    maintainabilityTests := v.numberField "maintainability_tests" usual.maintainabilityTests
    securityBase := v.numberField "security_base" usual.securityBase
    securityRawMarkup := v.numberField "security_raw_html_penalty" usual.securityRawMarkup
    securityEvaluation := v.numberField "security_eval_penalty" usual.securityEvaluation
    securityWrite := v.numberField "security_dom_write_penalty" usual.securityWrite }

def Intake.Settings.ofFields (v : Json) : Intake.Settings :=
  let usual : Intake.Settings := {}
  { maxFileSize := v.numberField "max_file_size" usual.maxFileSize
    largeFileThreshold := v.numberField "large_file_threshold" usual.largeFileThreshold
    maxChunkSize := v.numberField "max_chunk_size" usual.maxChunkSize }

def Intake.Settings.toJson (s : Intake.Settings) : Json := .obj [
  ("max_file_size", .num s.maxFileSize), ("large_file_threshold", .num s.largeFileThreshold),
  ("max_chunk_size", .num s.maxChunkSize)]

def StoreLimits.ofFields (v : Json) : StoreLimits :=
  let usual : StoreLimits := {}
  { maxSize := v.numberField "max_size" usual.maxSize
    ttlSeconds := v.numberField "ttl_seconds" usual.ttlSeconds
    evictFraction := v.numberField "evict_fraction" usual.evictFraction }

def StoreLimits.toJson (s : StoreLimits) : Json := .obj [
  ("max_size", .num s.maxSize), ("ttl_seconds", .num s.ttlSeconds),
  ("evict_fraction", .num s.evictFraction)]

def Generation.Settings.ofFields (v : Json) : Generation.Settings :=
  let usual : Generation.Settings := {}
  { intake := .ofFields (v.field "ingestion")
    cache := .ofFields (v.field "cache")
    patterns := .ofFields (v.field "patterns")
    quality := .ofFields (v.field "quality")
    useWorker := (v.field "use_worker").isTruthy
    workerTimeout := v.numberField "worker_timeout" usual.workerTimeout
    workers := v.wholeField "workers" usual.workers }

/-- The settings of reading, caching and working. -/
def Generation.Settings.toJson (s : Generation.Settings) : Json := .obj [
  ("ingestion", s.intake.toJson), ("cache", s.cache.toJson), ("use_worker", .bool s.useWorker),
  ("worker_timeout", .num s.workerTimeout), ("workers", .int s.workers)]

end DesignComponents
