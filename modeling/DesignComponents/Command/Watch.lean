import DesignComponents.Command.Generate
import DesignComponents.Disk.Path
import DesignComponents.Number.Basic

/-! Noticing that a design was changed, and generating its component again. Changes that follow one
another too closely count as one. -/

set_option autoImplicit false

namespace DesignComponents

/-- Something on the disk was changed. -/
structure Change where
  /-- In seconds. -/
  time : Number
  path : String
  isFolder : Bool := false
  deriving DecidableEq, Repr

structure Watch where
  /-- The only path that matters, if there is one. -/
  target : Option Disk.Path := none
  /-- How long nothing is noticed after something was, in seconds. -/
  pause : Number := .real (.ofInt 1)
  last : Number := .real (.zero false)
  deriving DecidableEq, Repr, Inhabited

namespace Watch

def isDesign (path : String) : Bool :=
  [".svg", ".json"].any fun ending => Text.endsWith ending.toList path.toList

/-- A watch on one path, or on all designs where the path is empty. -/
def on (current : Disk.Path) (path : String) : Watch :=
  { target := if path.isEmpty then none else some (current.resolve path) }

def isTarget (w : Watch) (current : Disk.Path) (path : String) : Bool :=
  w.target.all (· == current.resolve path)

/-- Whether a change is noticed. -/
def heeds (w : Watch) (current : Disk.Path) (c : Change) : Except Fault Bool :=
  if !c.isFolder && isDesign c.path && w.isTarget current c.path then
    return !(← c.time.sub w.last).lt w.pause
  else .ok false

/-- Whether a change is noticed, and the watch after it. -/
def notice (w : Watch) (current : Disk.Path) (c : Change) : Except Fault (Bool × Watch) :=
  return if ← w.heeds current c then (true, { w with last := c.time }) else (false, w)

end Watch

end DesignComponents

namespace DesignComponents.Command

open CommandLine

structure Watching where
  input : String
  choices : Choices
  settings : Json
  generator : Generator

/-- Reads the design and generates the component. -/
def Watching.generate (w : Watching) : Shell Watching := do
  match ← (load w.input).attempt with
  | .ok document =>
    return { w with generator := ← perform w.generator document w.settings w.choices }
  | .error p =>
    if isUnreadable p then
      Shell.printLine s!"   ❌ 無法讀取 '{w.input}'：{p.message}"
      return w
    else Shell.fail p

/-- Generates the component for the first time. A problem is told, and ends nothing. -/
def Watching.begin (w : Watching) : Shell Watching := do
  match ← w.generate.attempt with
  | .ok w => return w
  | .error p =>
    Shell.printLine s!"   ⚠️  Initial generation failed: {p.message}"
    return w

def changedText (path : String) : String := s!"\n🔄 File changed: {path}\n"

/-- Tells of a change and generates the component again. -/
def Watching.renew (w : Watching) (path : String) : Shell Watching := do
  Shell.print (changedText path)
  match ← w.generate.attempt with
  | .ok w => return w
  | .error _ => return w

/-- Begins to watch; there has to be a design. -/
def watch (input : String) (choices : Choices) (settings : Json) : Shell (Option Watching) := do
  if !(← Shell.isThere (Disk.Path.tidy input)) then
    Shell.printLine s!"❌ 找不到輸入檔 '{input}'。"
    return none
  Shell.printLine s!"👀 Watching '{input}' for changes..."
  Shell.printLine "   Press Ctrl+C to stop."
  return some (← Watching.begin { input, choices, settings, generator := ← generatorFor settings })

def stopText : String := "\n👋 Stopping watch...\n"

/-- Watches while nothing changes. -/
def watchOnce (input : String) (choices : Choices) (settings : Json) : Shell Unit := do
  if (← watch input choices settings).isSome then Shell.print stopText

end DesignComponents.Command
