/-
A disk: a file tree from its root and the working directory in it. Paths
are followed part by part, as an operating system does: every part needs a
directory to stand in, also one that names nothing, so a slash behind a
file leads nowhere.
-/
import ComponentMarkdown.Files.Path
import ComponentMarkdown.Files.Tree

namespace ComponentMarkdown.Files

-- ============================================================= faults

/-- Why something on a disk cannot be read. -/
inductive ReadFault where
  | notFound
  | notDirectory
  | isDirectory
  | nameTooLong
  /-- A path that holds the character that ends names for the system. -/
  | nameEnded
  | notText
  /-- A fault that is none of the disk, in the words of the system. -/
  | refused (words : String)
  deriving DecidableEq, Repr

/-- The system's words for a fault. -/
def ReadFault.message : ReadFault → String
  | .notFound => "No such file or directory (os error 2)"
  | .notDirectory => "Not a directory (os error 20)"
  | .isDirectory => "Is a directory (os error 21)"
  | .nameTooLong => "File name too long (os error 36)"
  | .nameEnded => "file name contained an unexpected NUL byte"
  | .notText => "stream did not contain valid UTF-8"
  | .refused words => words

/-- Why a file cannot be replaced. -/
inductive ReplaceFault where
  /-- There is no such directory to put a new file into. -/
  | directory (path : String)
  /-- The new file cannot be written to its end. -/
  | contents (path : String)
  /-- The new file cannot take the place of what is there. -/
  | target (path : String)
  deriving DecidableEq, Repr

-- =============================================================== disks

/-- A tree from the root and the working directory. -/
structure Disk where
  root : Tree
  workingDir : Place

namespace Disk

/-- How many bytes the name of an entry may have. -/
def maxNameLength : Nat := 255

/-- How many bytes a path may have. -/
def maxPathLength : Nat := 4095

/-- The path of the working directory from the root. -/
def workingPath (d : Disk) : String :=
  "/" ++ String.intercalate "/" d.workingDir

/-- A path from the root on. -/
def fromRoot (d : Disk) (path : String) : String :=
  Path.join d.workingPath path

/-- How many bytes the name of a new file has, before the file takes the
place of another. -/
def newNameLength : Nat := 10

/-- One part further from a place. -/
def step (d : Disk) (place : Place) (part : String) :
    Except ReadFault Place :=
  match d.root.at? place with
  | none => .error .notFound
  | some (.file _) => .error .notDirectory
  | some (.dir es) =>
    if Path.isVoid part then .ok place
    else if part == ".." then .ok place.dropLast
    else if maxNameLength < part.utf8ByteSize then .error .nameTooLong
    else if (es.lookup part).isSome then .ok (place ++ [part])
    else .error .notFound

/-- The place that a path leads to. -/
def find (d : Disk) (path : String) : Except ReadFault Place :=
  if path == "" then .error .notFound
  else if path.toList.contains '\x00' then .error .nameEnded
  else if maxPathLength < path.utf8ByteSize then .error .nameTooLong
  else
    (Path.parts path).foldlM d.step
      (if Path.isAbsolute path then [] else d.workingDir)

/-- What a path leads to. -/
def look (d : Disk) (path : String) : Except ReadFault Tree :=
  (d.find path).bind fun place =>
    match d.root.at? place with
    | some t => .ok t
    | none => .error .notFound

/-- Whether a path leads anywhere. -/
def hasPath (d : Disk) (path : String) : Bool := (d.look path).isOk

/-- Whether a path leads to a directory. -/
def isDir (d : Disk) (path : String) : Bool :=
  match d.look path with
  | .ok t => t.isDir
  | .error _ => false

/-- Whether a path leads to a file. -/
def isFile (d : Disk) (path : String) : Bool :=
  match d.look path with
  | .ok t => !t.isDir
  | .error _ => false

/-- The text of a file. -/
def read (d : Disk) (path : String) : Except ReadFault Text :=
  match d.look path with
  | .error e => .error e
  | .ok (.dir _) => .error .isDirectory
  | .ok (.file (.binary _)) => .error .notText
  | .ok (.file (.text t)) => .ok t

/-- The directory that a file stands in. -/
def directoryOf (path : String) : String :=
  match Path.parent? path with
  | none => "."
  | some dir => if dir == "" then "." else dir

/-- The place of a directory that a new file can be put into, and its
entries. The new file is named by its path from the root. -/
def openFor? (d : Disk) (dir : String) :
    Option (Place × List (String × Tree)) :=
  let size := (d.fromRoot dir).utf8ByteSize + 1 + newNameLength
  if maxPathLength < size then none
  else
    match d.find dir, d.look dir with
    | .ok place, .ok (.dir entries) => some (place, entries)
    | _, _ => none

/-- Whether a new file can take a name in a directory, written at the end of
a path. -/
def canTake (path name : String) (entries : List (String × Tree)) : Bool :=
  path.utf8ByteSize ≤ maxPathLength && !Path.isVoid name && name != ".."
    && !name.toList.contains '\x00' && name.utf8ByteSize ≤ maxNameLength
    && !(entries.lookup name).any Tree.isDir

/-- Gives a file a new text, whole or not at all: a new file is written
beside it and takes its place. -/
def replace (d : Disk) (path : String) (t : Text) :
    Except ReplaceFault Disk :=
  let dir := directoryOf path
  match d.openFor? dir with
  | none => .error (.directory dir)
  | some (place, entries) =>
    let name := (Path.parts path).getLastD ""
    if canTake path name entries then
      .ok { d with root := d.root.put (place ++ [name]) (.file (.text t)) }
    else .error (.target path)

end Disk

-- ============================================================== access

/-- How a command gets at files: a text that is read, and a file that is
replaced or left with a fault. -/
structure Access where
  read : Disk → String → Except ReadFault Text
  replace : Disk → String → Text → Disk × Option ReplaceFault

/-- Access to a disk that nothing else stands in the way of. -/
def Disk.access : Access where
  read := Disk.read
  replace d path t :=
    match d.replace path t with
    | .ok d' => (d', none)
    | .error fault => (d, some fault)

end ComponentMarkdown.Files
