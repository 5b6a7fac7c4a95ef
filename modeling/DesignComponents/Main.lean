import DesignComponents.Command.Run
import Std.Time.DateTime.Timestamp

/-! The program: it carries out its command line on the machine that it runs on. -/

set_option autoImplicit false

namespace DesignComponents.Main

open CommandLine

/-- Why the disk refuses, by what it tells. -/
def diskError (path : String) : IO.Error → Disk.Error
  | .noFileOrDirectory .. => .missing path
  | .alreadyExists .. => .taken path
  | .permissionDenied .. => .denied path
  | .inappropriateType .. => .notFolder path
  | _ => .isFolder path

def onDisk {α : Type} (path : String) (act : IO α) : IO (Except Disk.Error α) := do
  match ← act.toBaseIO with
  | .ok a => return .ok a
  | .error e => return .error (diskError path e)

/-- The milliseconds since the first of January 1970. -/
def milliseconds : IO Int := do
  return (← Std.Time.Timestamp.now).toMillisecondsSinceUnixEpoch.val

def clock : IO (Generation.Moment × Int) := do
  let now ← milliseconds
  let time := Timestamp.ofSeconds (now / 1000).toNat (1000 * (now % 1000).toNat)
  return (⟨.int now, .int now, time⟩, now)

def answer : (w : Wish) → IO w.Answer
  | .print text => do
    IO.print text
    (← IO.getStdout).flush
  | .complain text => IO.eprint text
  | .read path => onDisk path (IO.FS.readFile path)
  | .isThere path => do
    return .ok (← (IO.FS.realPath path).toBaseIO).isOk
  | .makeFolders path => onDisk path (IO.FS.createDirAll path)
  | .write path text => onDisk path (IO.FS.writeFile path text)
  | .folder => do
    return Disk.Path.resolve {} (← IO.currentDir).toString
  | .variable name => IO.getEnv name
  | .fetch _ => return .error (.unreachable "no connection")
  | .clock => clock

def perform {α : Type} (s : Shell α) : IO (Except Problem α) := s.perform answer

/-- The time of a file's last change, in nanoseconds. -/
def changeTime (path : String) : IO Int := do
  match ← (do (← IO.FS.realPath path).metadata).toBaseIO with
  | .ok data => return data.modified.sec * 1000000000 + data.modified.nsec.toNat
  | .error _ => return 0

/-- Looks every second whether the design was changed. -/
partial def watchOn (w : Command.Watching) (watch : Watch) (seen : Int) : IO Unit := do
  IO.sleep 1000
  let changed ← changeTime w.input
  if changed == seen then watchOn w watch seen else
    let current := Disk.Path.resolve {} (← IO.currentDir).toString
    let change : Change := { time := .int ((← milliseconds) / 1000), path := w.input }
    match watch.notice current change with
    | .ok (true, watch) =>
      match ← perform (w.renew w.input) with
      | .ok w => watchOn w watch changed
      | .error _ => watchOn w watch changed
    | _ => watchOn w watch changed

def watch (a : Arguments) (input : String) (choices : Choices) : IO (Except Problem Unit) := do
  let begun ← perform do
    Command.watch input choices (← Command.settingsOf a)
  match begun with
  | .ok (some w) =>
    let current := Disk.Path.resolve {} (← IO.currentDir).toString
    watchOn w (.on current input) (← changeTime input)
    return .ok ()
  | .ok none => return .ok ()
  | .error p => return .error p

/-- The code to end with; a problem that no command deals with is told. -/
def codeOf : Except Problem (Option Nat) → IO UInt32
  | .ok code => return (code.getD 0).toUInt32
  | .error p => do
    IO.eprintln p.message
    return 1

end DesignComponents.Main

open DesignComponents in
def main (line : List String) : IO UInt32 := do
  match CommandLine.Arguments.read line with
  | .ok ⟨path, some (.watch (.text input) choices)⟩ =>
    Main.codeOf ((fun _ => none) <$> (← Main.watch ⟨path, none⟩ input choices))
  | _ => Main.codeOf (← Main.perform (Command.run line))
