import DesignComponents.Text.Search

/-! Paths from the root of a disk, as the names along them. -/

set_option autoImplicit false

namespace DesignComponents.Disk

open Text

structure Path where
  /-- Whether exactly two slashes begin it, which is not the root that one slash means. -/
  doubled : Bool := false
  names : List String := []
  deriving DecidableEq, Repr, Inhabited

namespace Path

/-- What stands between the slashes of a text. -/
def pieces (text : String) : List String := (splitOn '/' text.toList).map String.ofList

/-- Whether a piece leaves the path where it is. -/
def isIdle (piece : String) : Bool := piece == "" || piece == "."

/-- One step along a path. There is nothing above the root. -/
def push (names : List String) (piece : String) : List String :=
  if isIdle piece then names else if piece = ".." then names.dropLast else names ++ [piece]

def isAbsolute (text : String) : Bool := startsWith ['/'] text.toList

def isDoubled (text : String) : Bool :=
  startsWith ['/', '/'] text.toList && !startsWith ['/', '/', '/'] text.toList

/-- The path that a text means in a folder. -/
def resolve (folder : Path) (text : String) : Path :=
  if isAbsolute text then ⟨isDoubled text, (pieces text).foldl push []⟩
  else { folder with names := (pieces text).foldl push folder.names }

def text (p : Path) : String := (if p.doubled then "//" else "/") ++ "/".intercalate p.names

def parent (p : Path) : Path := { p with names := p.names.dropLast }

/-- Whether a path is the folder's or leads into it. -/
def contains (folder p : Path) : Bool := !folder.doubled && folder.names.isPrefixOf p.names

/-- The names left after those that both lists begin with. -/
def dropShared : List String → List String → List String × List String
  | a :: as, b :: bs => if a = b then dropShared as bs else (a :: as, b :: bs)
  | as, bs => (as, bs)

/-- How a path is written in a folder. -/
def relativeTo (folder p : Path) : String :=
  let (up, down) := dropShared folder.names p.names
  match List.replicate up.length ".." ++ down with
  | [] => "."
  | names => "/".intercalate names

/-- The text of a path without the pieces that leave it where it is. -/
def tidy (text : String) : String :=
  let root := if isDoubled text then "//" else if isAbsolute text then "/" else ""
  match root ++ "/".intercalate ((pieces text).filter (!isIdle ·)) with
  | "" => "."
  | tidied => tidied

end Path

end DesignComponents.Disk
