import DesignComponents.Generation.Generate
import DesignComponents.Problem

/-! What a command asks of the machine it runs on: files and folders, a place to print, what
surrounds the program, a server and a clock. -/

set_option autoImplicit false

namespace DesignComponents

inductive Wish where
  | print (text : String)
  /-- Prints where problems are told. -/
  | complain (text : String)
  | read (path : String)
  | isThere (path : String)
  /-- Makes the folders that are missing along a path. -/
  | makeFolders (path : String)
  | write (path text : String)
  /-- Asks for the folder that other paths start from. -/
  | folder
  /-- Asks for a variable that surrounds the program. -/
  | variable (name : String)
  | fetch (request : Web.Request)
  /-- Asks for the moment of a generation, and for the millisecond it begins in. -/
  | clock

abbrev Wish.Answer : Wish → Type
  | .print _ | .complain _ => Unit
  | .read _ => Except Disk.Error String
  | .isThere _ => Except Disk.Error Bool
  | .makeFolders _ | .write .. => Except Disk.Error Unit
  | .folder => Disk.Path
  | .variable _ => Option String
  | .fetch _ => Except Web.Error Web.Response
  | .clock => Generation.Moment × Int

abbrev Shell := Script Wish.Answer Problem

namespace Shell

variable {α : Type}

def put (w : Wish) : Shell w.Answer := Script.put w

def print (text : String) : Shell Unit := put (.print text)

def printLine (text : String) : Shell Unit := print (text ++ "\n")

def fail (p : Problem) : Shell α := Script.fail p

def lift (r : Except Problem α) : Shell α := Script.lift r

def liftTrouble (r : Except Trouble α) : Shell α := lift (r.mapError .trouble)

def liftFault (r : Except Fault α) : Shell α := lift (r.mapError fun f => .trouble (.fault f))

def onDisk (r : Except Disk.Error α) : Shell α := lift (r.mapError .disk)

def isThere (path : String) : Shell Bool := do
  onDisk (← put (.isThere path))

def makeFolders (path : String) : Shell Unit := do
  onDisk (← put (.makeFolders path))

def write (path text : String) : Shell Unit := do
  onDisk (← put (.write path text))

/-- The text of a file, every line break as one character. -/
def readText (path : String) : Shell String := do
  let text ← onDisk (← put (.read path))
  return String.ofList (Text.plainBreaks text.toList)

def readJson (path : String) : Shell Json := do
  let text ← readText path
  lift ((Json.parse text).mapError fun e => .unread e text)

end Shell

end DesignComponents
