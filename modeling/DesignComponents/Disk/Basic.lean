import DesignComponents.Disk.Path
import DesignComponents.Text.Quoted

/-! Disks: folders and files of text under paths from a root, and a folder that other paths start
from. -/

set_option autoImplicit false

namespace DesignComponents

namespace Disk

/-- Why a disk refuses, with the path as it was asked for. -/
inductive Error where
  | missing (path : String)
  | denied (path : String)
  | taken (path : String)
  | notFolder (path : String)
  | isFolder (path : String)
  | longName (path : String)
  | nullCharacter
  deriving DecidableEq, Repr

def numbered (number what path : String) : String :=
  "[Errno " ++ number ++ "] " ++ what ++ ": " ++ String.ofList (Text.Quoted.encode path.toList)

def Error.message : Error → String
  | .missing path => numbered "2" "No such file or directory" path
  | .denied path => numbered "13" "Permission denied" path
  | .taken path => numbered "17" "File exists" path
  | .notFolder path => numbered "20" "Not a directory" path
  | .isFolder path => numbered "21" "Is a directory" path
  | .longName path => numbered "36" "File name too long" path
  | .nullCharacter => "embedded null byte"

inductive Entry where
  | folder
  | file (text : String)
  deriving DecidableEq, Repr

end Disk

structure Disk where
  current : Disk.Path := {}
  entries : List (List String × Disk.Entry) := []

namespace Disk

/-- What is at a place; the root is always a folder. -/
def entry? (d : Disk) (names : List String) : Option Entry :=
  if names.isEmpty then some .folder else d.entries.lookup names

def put (d : Disk) (names : List String) (e : Entry) : Disk :=
  { d with entries := (names, e) :: d.entries.filter (·.1 != names) }

def files (d : Disk) : List (List String × String) :=
  d.entries.filterMap fun (names, e) =>
    match e with
    | .file text => some (names, text)
    | .folder => none

/-- The longest name that a disk takes, in bytes. -/
def nameLimit : Nat := 255

def isLong (name : String) : Bool := nameLimit < name.utf8ByteSize

/-- Goes along a path; wherever it goes on from, there has to be a folder. -/
def follow (d : Disk) (path : String) (here : List String) :
    List String → Except Error (List String)
  | [] => .ok here
  | piece :: rest =>
    match d.entry? here with
    | none => .error (.missing path)
    | some (.file _) => .error (.notFolder path)
    | some .folder =>
      if isLong piece then .error (.longName path) else follow d path (Path.push here piece) rest

/-- Where a path starts. -/
def start (d : Disk) (path : String) : List String :=
  if Path.isAbsolute path then [] else d.current.names

def locate (d : Disk) (path : String) : Except Error (List String) :=
  if path.isEmpty then .error (.missing path)
  else if path.toList.contains '\x00' then .error .nullCharacter
  else d.follow path (d.start path) (Path.pieces path)

def read (d : Disk) (path : String) : Except Error String := do
  match d.entry? (← d.locate path) with
  | none => throw (.missing path)
  | some .folder => throw (.isFolder path)
  | some (.file text) => pure text

/-- Whether something is at a path. -/
def isThere (d : Disk) (path : String) : Except Error Bool :=
  match d.locate path with
  | .ok names => .ok (d.entry? names).isSome
  | .error (.longName p) => .error (.longName p)
  | .error _ => .ok false

def write (d : Disk) (path text : String) : Except Error Unit × Disk :=
  match d.locate path with
  | .error e => (.error e, d)
  | .ok names =>
    match d.entry? names with
    | some .folder => (.error (.isFolder path), d)
    | _ => (.ok (), d.put names (.file text))

/-- Makes the folders that are missing along a path; `behind` are the pieces gone along. -/
def makeAlong (d : Disk) (behind here : List String) : List String → Except Error Unit × Disk
  | [] => (.ok (), d)
  | piece :: rest =>
    let behind := behind ++ [piece]
    let path := "/".intercalate behind
    let next := Path.push here piece
    if isLong piece then (.error (.longName path), d) else
    match d.entry? next with
    | some .folder => makeAlong d behind next rest
    | none => makeAlong (d.put next .folder) behind next rest
    | some (.file _) =>
      match rest.dropWhile (· == "") with
      | [] => (.error (.taken path), d)
      | piece :: _ => (.error (.notFolder (path ++ "/" ++ piece)), d)

def makeFolders (d : Disk) (path : String) : Except Error Unit × Disk :=
  if path.isEmpty then (.error (.missing path), d)
  else if path.toList.contains '\x00' then (.error .nullCharacter, d)
  else d.makeAlong [] (d.start path) (Path.pieces path)

end Disk

end DesignComponents
