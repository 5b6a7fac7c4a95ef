import DesignComponents.Generation.Timestamp
import DesignComponents.Json.Printer
import DesignComponents.Pattern.Rules
import DesignComponents.Project.Assessment
import DesignComponents.Project.Build

/-! What a generation gives: the files of a project, and what is known about them. -/

set_option autoImplicit false

namespace DesignComponents

def Config.toJson (c : Config) : Json := .obj [
  ("framework", c.framework), ("typescript", c.typescript), ("styling", c.styling),
  ("component_name", c.componentName), ("pass_props", c.passProps),
  ("render_children", c.renderChildren), ("memo", c.memo), ("unit_tests", c.unitTests),
  ("optimization", .obj [("tree_shaking", .bool c.optimization.treeShaking),
    ("code_splitting", .bool c.optimization.codeSplitting),
    ("lazy_loading", .bool c.optimization.lazyLoading)])]

def GeneratedFile.toJson (f : GeneratedFile) : Json := .obj [
  ("path", .str f.path), ("name", .str f.name), ("content", .str f.content),
  ("language", .str f.language.name), ("size", .int f.size), ("imports", .ofStrings f.imports),
  ("exports", .ofStrings f.exports), ("dependencies", .ofStrings f.dependencies)]

def Pattern.Insight.toJson (i : Pattern.Insight) : Json := .obj [
  ("severity", .str i.severity.name), ("message", .str i.message), ("fix", .str i.fix)]

def Pattern.toJson (p : Pattern) : Json := .obj [
  ("type", .str p.kind.name), ("confidence", .num p.confidence),
  ("suggestions", .ofStrings p.kind.suggestions),
  ("accessibility", .arr (p.insights.map Pattern.Insight.toJson)), ("node_id", .str p.nodeId),
  ("node_name", p.nodeName)]

namespace Project

def Layout.toJson (l : Layout) : Json := .obj [
  ("root", .str l.root), ("components", .ofStrings l.components), ("hooks", .ofStrings l.hooks),
  ("utils", .ofStrings l.utils), ("types", .ofStrings l.types), ("styles", .ofStrings l.styles),
  ("tests", .ofStrings l.tests), ("assets", .ofStrings l.assets)]

def Measures.toJson (m : Measures) : Json := .obj [
  ("lines_of_code", .int m.linesOfCode), ("component_count", .int m.componentCount),
  ("total_size", .int m.totalSize), ("complexity", .int m.complexity),
  ("maintainability_index", .real m.maintainability), ("duplicate_lines", .int m.repeatedLines),
  ("generation_time_ms", .num m.duration)]

def Scores.toJson (s : Scores) : Json := .obj [
  ("visual", .real s.visual), ("code", .real s.code), ("performance", .real s.performance),
  ("accessibility", .real s.accessibility), ("maintainability", .real s.maintainability),
  ("security", .real s.security)]

def Issue.toJson (i : Issue) : Json := .obj [
  ("severity", .str i.severity.name), ("message", .str i.message), ("category", .str i.category)]

def Assessment.toJson (q : Assessment) : Json := .obj [
  ("overall", .real q.overall), ("categories", q.scores.toJson),
  ("issues", .arr (q.issues.map Issue.toJson)),
  ("recommendations", .ofStrings q.recommendations)]

def Log.toJson (l : Log) : Json := .obj [
  ("level", .str l.level.name), ("message", .str l.message), ("file", .str l.file),
  ("line", .int l.line)]

end Project

structure Generated where
  id : String
  timestamp : Timestamp
  config : Config
  files : List GeneratedFile
  layout : Project.Layout
  metrics : Project.Measures
  quality : Project.Assessment
  preview : String
  status : Project.Status
  logs : List Project.Log
  patterns : List Pattern

namespace Generated

def toJson (g : Generated) : Json := .obj [
  ("id", .str g.id), ("timestamp", .str (g.timestamp.text " ")), ("config", g.config.toJson),
  ("files", .arr (g.files.map GeneratedFile.toJson)), ("structure", g.layout.toJson),
  ("metrics", g.metrics.toJson), ("quality", g.quality.toJson), ("preview", .str g.preview),
  ("build_status", .str g.status.name), ("build_logs", .arr (g.logs.map Project.Log.toJson)),
  ("patterns", .arr (g.patterns.map Pattern.toJson))]

/-- The size in bytes of all of it, as it is written. -/
def size (g : Generated) : Nat := g.toJson.byteSize

/-! ### The report -/

def fileSummary (f : GeneratedFile) : Json :=
  .obj [("path", .str f.path), ("language", .str f.language.name), ("size", .int f.size)]

def patternSummary (p : Pattern) : Json := .obj [
  ("type", .str p.kind.name), ("confidence", .num p.confidence), ("nodeId", .str p.nodeId),
  ("nodeName", p.nodeName)]

def report (g : Generated) : Json := .obj [
  ("id", .str g.id), ("generatedAt", .str g.timestamp.inZone.iso),
  ("framework", g.config.framework), ("styling", g.config.styling),
  ("typescript", g.config.typescript), ("componentName", g.config.componentName),
  ("buildStatus", .str g.status.name), ("quality", g.quality.toJson),
  ("metrics", g.metrics.toJson), ("files", .arr (g.files.map fileSummary)),
  ("patterns", .arr (g.patterns.map patternSummary)),
  ("buildLogs", .arr (g.logs.map Project.Log.toJson))]

def reportText (g : Generated) : String := g.report.print .indent

end Generated

end DesignComponents
