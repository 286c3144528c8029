/-
Paths as they are written: parts between slashes. Empty parts and single
dots name nothing, except a dot in front of a relative path, so several
spellings can name one path; two dots are kept, since they mean the parent
only once directories are looked up.
-/
import ComponentMarkdown.Text.Basic

namespace ComponentMarkdown.Files

-- ============================================================== parts

/-- The parts of a text between slashes, empty ones included. -/
def splitSlash : Text → List Text
  | [] => [[]]
  | c :: rest =>
    if c = '/' then [] :: splitSlash rest
    else
      match splitSlash rest with
      | [] => [[c]]
      | part :: more => (c :: part) :: more

namespace Path

/-- The parts of a path between slashes, empty ones included. -/
def parts (path : String) : List String :=
  (splitSlash path.toList).map String.ofList

/-- Whether a path starts at the root. -/
def isAbsolute (path : String) : Bool := path.toList.head? == some '/'

/-- A part that names nothing. -/
def isVoid (part : String) : Bool := part == "" || part == "."

/-- How a path starts. -/
inductive Start where
  | root
  /-- A single dot: the working directory, said outright. -/
  | here
  | relative
  deriving DecidableEq, Repr

/-- How a path starts, and its parts behind the start. -/
def split (path : String) : Start × List String :=
  match parts path with
  | "" :: second :: rest => (.root, second :: rest)
  | "." :: rest => (.here, rest)
  | all => (.relative, all)

-- =========================================================== equality

/-- What a path names: its start and the parts that name something. -/
def components (path : String) : Start × List String :=
  let (start, body) := split path
  (start, body.filter (!isVoid ·))

/-- Whether two spellings name the same path. -/
def same (a b : String) : Bool := components a == components b

-- ========================================================== ancestors

/-- A start and parts, written as a path. -/
def write : Start → List String → String
  | .root, body => "/" ++ String.intercalate "/" body
  | .here, [] => "."
  | .here, body => "./" ++ String.intercalate "/" body
  | .relative, body => String.intercalate "/" body

/-- The bodies of the paths above a path, the nearest first; all bodies
have their last part first. -/
def bodiesAbove : List String → List (List String)
  | [] => []
  | part :: rest =>
    if isVoid part then bodiesAbove rest
    else rest.dropWhile isVoid :: bodiesAbove rest

/-- The paths above a path, the nearest first. Those of a relative path end
with the empty path. -/
def above (path : String) : List String :=
  let (start, body) := split path
  let written := (bodiesAbove body.reverse).map fun b => write start b.reverse
  if start = .here then written ++ [""] else written

/-- The path above a path, if there is one. -/
def parent? (path : String) : Option String := (above path).head?

/-- A path and those above it. -/
def ancestors (path : String) : List String := path :: above path

-- =============================================================== join

/-- The path of an entry, relative or not, of a directory. -/
def join (dir entry : String) : String :=
  if isAbsolute entry || dir == "" then entry
  else if dir.toList.getLast? == some '/' then dir ++ entry
  else dir ++ "/" ++ entry

end Path

end ComponentMarkdown.Files
