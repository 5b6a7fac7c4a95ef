import DesignComponents.Disk.Path
import DesignComponents.Shell

/-! Saving what was generated: the files of the project, a preview and a report. The files all go into
one folder: a path that leads out of it is refused, and with it all files after it. -/

set_option autoImplicit false

namespace DesignComponents.Project

/-! ### Where files go -/

structure Placed where
  path : Disk.Path
  text : String
  deriving DecidableEq, Repr

structure Placement where
  placed : List Placed
  /-- The first path that leads out of the folder. -/
  refused : Option String
  deriving DecidableEq, Repr

/-- The places of files, given by path and text, in a folder. -/
def place (root : Disk.Path) : List (String × String) → Placement
  | [] => ⟨[], none⟩
  | (path, text) :: rest =>
    let target := root.resolve path
    if root.contains target then
      let more := place root rest
      ⟨⟨target, text⟩ :: more.placed, more.refused⟩
    else ⟨[], some path⟩

end DesignComponents.Project

namespace DesignComponents.Command

/-! ### Saving them -/

def previewName : String := "preview.html"

def reportName : String := "generation-report.json"

def savePlaced (p : Project.Placed) : Shell Disk.Path := do
  Shell.makeFolders p.path.parent.text
  Shell.write p.path.text p.text
  return p.path

/-- Saves files into a folder, and tells where. -/
def saveFiles (folder : String) (files : List (String × String)) : Shell (List Disk.Path) := do
  let current ← Shell.put .folder
  let placement := Project.place (current.resolve folder) files
  let saved ← placement.placed.mapM savePlaced
  match placement.refused with
  | some path => Shell.fail (Fault.outsideOutput path)
  | none => return saved

/-- A path in a folder, as it is written. -/
def joined (folder name : String) : String :=
  if folder.isEmpty || Text.endsWith ['/'] folder.toList then folder ++ name
  else folder ++ "/" ++ name

/-- Saves one file in a folder, and tells where. -/
def saveNamed (folder name text : String) : Shell String := do
  let path := joined folder name
  Shell.makeFolders folder
  Shell.write path text
  return path

def savePreview (folder preview : String) : Shell String := saveNamed folder previewName preview

def saveReport (folder : String) (g : Generated) : Shell String :=
  saveNamed folder reportName g.reportText

end DesignComponents.Command
