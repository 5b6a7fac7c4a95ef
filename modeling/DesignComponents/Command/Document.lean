import DesignComponents.CommandLine.Arguments
import DesignComponents.Figma.Client
import DesignComponents.Settings.Read

/-! Where a command gets its design from: a file, or the server that keeps it. A design that cannot
be had is told of, and is null. -/

set_option autoImplicit false

namespace DesignComponents.Command

open CommandLine

/-- A text that was given and is not empty. -/
def given? (g : Option Given) : Option String := (g.bind Given.text?).filter (!·.isEmpty)

def isJsonPath (path : String) : Bool := Text.endsWith ".json".toList (Text.lower path.toList)

/-- A design in a file; by its name it is either JSON or markup. -/
def load (path : String) : Shell Json :=
  if isJsonPath path then Shell.readJson path else Json.str <$> Shell.readText path

/-- Whether a problem lies in the file. -/
def isUnreadable : Problem → Bool
  | .disk _ | .unread .. => true
  | _ => false

def loadOrTell (path before : String) : Shell Json := do
  match ← (load path).attempt with
  | .ok document => return document
  | .error p =>
    if isUnreadable p then
      Shell.printLine s!"{before}❌ 無法讀取 '{path}'：{p.message}"
      return .null
    else Shell.fail p

def noTokenText : String :=
  s!"❌ 請設定 FIGMA_TOKEN 環境變數，或在 {Settings.usualPath} 的 figma.personalAccessToken 設定。\n" ++
    "   取得方式：Figma → Settings → Personal access tokens → 新增\n"

def noSourceText : String :=
  s!"❌ 請使用 --input 或 --file-key（或在 {Settings.usualPath} 的 figma.fileKey 設定）。\n"

def request (token fileKey : Json) : Shell Json := do
  let key ← Shell.liftTrouble (Figma.FileKey.ofSetting fileKey)
  Shell.printLine s!"📥 Fetching Figma file: {key}"
  let asked := Figma.Client.request token key [] Figma.Client.usualTimeout
  let reply ← Shell.put (.fetch asked)
  Shell.lift (Figma.Client.document asked reply)

/-- Whether a problem is one of asking for a file. -/
def isRefusal : Problem → Bool
  | .trouble (.failure _) | .web _ | .unread (.unexpected ..) _ => true
  | _ => false

def fetch (fileKey settings : Json) : Shell Json := do
  let token ← Shell.liftFault (Settings.token settings (← Shell.put (.variable "FIGMA_TOKEN")))
  if !token.isTruthy then
    Shell.print noTokenText
    return .null
  match ← (request token fileKey).attempt with
  | .ok document => return document
  | .error p =>
    if isRefusal p then
      Shell.printLine s!"❌ Figma API 錯誤：{p.description}"
      return .null
    else Shell.fail p

/-- The key of the file to ask for: one that is given goes before one in the settings. -/
def fileKey (source : Source) (settings : Json) : Except Fault Json :=
  match given? source.fileKey with
  | some key => .ok (.str key)
  | none => do (← settings.memberD "figma" (.obj [])).member "fileKey"

def document (source : Source) (settings : Json) : Shell Json :=
  match given? source.input with
  | some path => loadOrTell path ""
  | none => do
    let key ← Shell.liftFault (fileKey source settings)
    if key.isTruthy then fetch key settings
    else do
      Shell.print noSourceText
      return .null

end DesignComponents.Command
