import DesignComponents.Component.Config
import DesignComponents.Project.File

/-! The build log of a project, and the status it gives. -/

set_option autoImplicit false

namespace DesignComponents.Project

open Text

inductive Level where
  | info
  | warn
  | error
  /-- A level that a log was given by name. -/
  | other (name : String)
  deriving DecidableEq, Repr, Inhabited

namespace Level

def known : List Level := [info, warn, error]

def name : Level → String
  | info => "info"
  | warn => "warn"
  | error => "error"
  | other name => name

def named (s : String) : Level := (known.find? fun l => l.name == s).getD (.other s)

end Level

structure Log where
  level : Level
  message : String
  file : String := ""
  line : Int := 1
  deriving DecidableEq, Repr, Inhabited

inductive Status where
  | success
  | warning
  | error
  deriving DecidableEq, Repr, Inhabited

def Status.name : Status → String
  | success => "success"
  | warning => "warning"
  | error => "error"

/-- The worst level there is decides. -/
def Status.ofLogs (logs : List Log) : Status :=
  if logs.any (·.level = .error) then .error
  else if logs.any (·.level = .warn) then .warning
  else .success

def mentions (code : List Char) (word : String) : Bool := occurs word.toList code

def interfaceName : Reader Unit := do
  Reader.text "interface"
  let _ ← Reader.blanks1
  let _ ← Reader.one isWord

def typeIssues (code : List Char) : List String :=
  (if mentions code ": React.FC" && !mentions code "import React" then
    ["React import missing for React.FC type"] else []) ++
  (if found interfaceName code && !mentions code "export" then
    ["Interface defined but not exported"] else [])

def usesReact (code : List Char) : Bool :=
  mentions code "React." || mentions code "useState" || mentions code "useEffect"

def isReactPath (path : String) : Bool :=
  endsWith ".tsx".toList path.toList || endsWith ".jsx".toList path.toList

def fileLogs (config : Config) (file : GeneratedFile) : List Log :=
  let code := file.content.toList
  if (trim code).isEmpty then [⟨.warn, "File is empty", file.path, 1⟩]
  else
    (if isReactPath file.path && usesReact code && !file.imports.contains "react" then
      [⟨.warn, "Missing import: react", file.path, 1⟩] else []) ++
    if config.isTyped && file.language = .typescript then
      (typeIssues code).map fun issue => ⟨.error, issue, file.path, 1⟩
    else []

def buildLogs (files : List GeneratedFile) (config : Config) : List Log :=
  files.flatMap (fileLogs config) ++ [⟨.info, s!"Validated {files.length} files", "", 1⟩]

end DesignComponents.Project
