/-
Replacing a file step by step, on a system that may refuse any step. A new
file is made beside the old one, is written, and takes its place by a new
name; if one of the three is refused the new file is removed again.

What is refused is up to the host. A disk alone says only which steps could
never be taken.
-/
import ComponentMarkdown.Files.Disk

namespace ComponentMarkdown.Files

-- ============================================================== steps

namespace Disk

/-- Changes the entries of a directory. -/
def edit (d : Disk) (place : Place)
    (f : List (String × Tree) → List (String × Tree)) : Disk :=
  { d with root := d.root.editAt f place }

/-- Lets a file of a directory hold something, a new file if there is
none of the name. -/
def setFile (d : Disk) (place : Place) (name : String) (c : Contents) :
    Disk :=
  d.edit place (Tree.setEntry name (.file c))

/-- Removes a file of a directory. -/
def removeFile (d : Disk) (place : Place) (name : String) : Disk :=
  d.edit place (Tree.removeEntry name)

/-- Lets a file of a directory take another name. -/
def renameFile (d : Disk) (place : Place) (old new : String) : Disk :=
  d.edit place (Tree.renameEntry old new)

end Disk

-- =============================================================== hosts

/-- The system that a command runs on: which steps it refuses, and how it
names new files. All of it is by the path of the file that is read or
replaced, so each file may fare otherwise than the one before. -/
structure Host where
  /-- Why a file is not read. -/
  refusesRead? : String → Option String
  /-- Whether no new file is made beside a file. -/
  refusesNew : String → Bool
  /-- What the new file holds if writing it ends before its end. -/
  endsEarly? : String → Text → Option Contents
  /-- Whether the new file is kept from taking its place. -/
  refusesRename : String → Bool
  /-- The name of the new file, by the entries beside it. -/
  newName : String → List (String × Tree) → String
  newName_free : ∀ (path : String) (entries : List (String × Tree)),
    entries.lookup (newName path entries) = none

namespace Host

/-- The text of a file, unless reading it is refused. -/
def read (h : Host) (d : Disk) (path : String) : Except ReadFault Text :=
  match h.refusesRead? path with
  | some words => .error (.refused words)
  | none => d.read path

/-- Gives a file a new text by way of a new file, which is not left behind
if that fails. -/
def replace (h : Host) (d : Disk) (path : String) (t : Text) :
    Disk × Option ReplaceFault :=
  let dir := Disk.directoryOf path
  match d.openFor? dir with
  | none => (d, some (.directory dir))
  | some (place, entries) =>
    if h.refusesNew path then (d, some (.directory dir))
    else
      let new := h.newName path entries
      let made := d.setFile place new (.text [])
      match h.endsEarly? path t with
      | some part =>
        ((made.setFile place new part).removeFile place new,
          some (.contents path))
      | none =>
        let written := made.setFile place new (.text t)
        let name := (Path.parts path).getLastD ""
        if Disk.canTake path name entries && !h.refusesRename path then
          (written.renameFile place new name, none)
        else (written.removeFile place new, some (.target path))

end Host

-- ============================================================== access

/-- Access to a disk by way of a host. -/
def Host.access (h : Host) : Access where
  read := h.read
  replace := h.replace

end ComponentMarkdown.Files
