/-
File trees: directories with named entries in ascending order, and files.
A file holds text, or bytes that are no UTF-8 text; only text can be read,
but both can be replaced.

A place in a tree is the list of entry names that leads to it from the
root.
-/
import ComponentMarkdown.Text.Basic

namespace ComponentMarkdown.Files

/-- What a file holds. -/
inductive Contents where
  | text (t : Text)
  /-- Bytes that are not UTF-8. -/
  | binary (bytes : List UInt8)
  deriving DecidableEq, Repr

/-- A file or a directory. -/
inductive Tree where
  | file (contents : Contents)
  | dir (entries : List (String × Tree))

/-- The names that lead to a place from the root. -/
abbrev Place := List String

namespace Tree

/-- An empty directory. -/
def empty : Tree := .dir []

/-- Whether there is a directory. -/
def isDir : Tree → Bool
  | .file _ => false
  | .dir _ => true

/-- The entries of a directory; a file has none. -/
def entries : Tree → List (String × Tree)
  | .file _ => []
  | .dir es => es

/-- What stands at a place. -/
def at? (t : Tree) : Place → Option Tree
  | [] => some t
  | name :: rest => (t.entries.lookup name).bind (at? · rest)

/-- Sets the entry of a name, keeping the order of names. -/
def setEntry (name : String) (t : Tree) :
    List (String × Tree) → List (String × Tree)
  | [] => [(name, t)]
  | (key, old) :: rest =>
    if name < key then (name, t) :: (key, old) :: rest
    else if name = key then (key, t) :: rest
    else (key, old) :: setEntry name t rest

/-- Takes the entry of a name away. -/
def removeEntry (name : String) (entries : List (String × Tree)) :
    List (String × Tree) :=
  entries.filter (·.1 != name)

/-- Gives an entry another name, and takes away what had that name. -/
def renameEntry (old new : String) (entries : List (String × Tree)) :
    List (String × Tree) :=
  match entries.lookup old with
  | none => entries
  | some t => setEntry new t (removeEntry old entries)

/-- Puts a tree at a place. Directories on the way are made where nothing
stands, and a file on the way gives way to a directory. -/
def put (t : Tree) : Place → Tree → Tree
  | [], new => new
  | name :: rest, new =>
    let below := (t.entries.lookup name).getD empty
    .dir (setEntry name (put below rest new) t.entries)

/-- Changes what a directory at a place has for entries. -/
def editAt (t : Tree) (f : List (String × Tree) → List (String × Tree)) :
    Place → Tree
  | [] => .dir (f t.entries)
  | name :: rest =>
    let below := (t.entries.lookup name).getD empty
    .dir (setEntry name (editAt below f rest) t.entries)

mutual

/-- Every place below a directory, each directory before what it holds,
with the path that leads there. -/
def inside (path : List String) : Tree → List (List String × Tree)
  | .file _ => []
  | .dir es => insideEntries path es

/-- Every entry of a list, and what stands below it. -/
def insideEntries (path : List String) :
    List (String × Tree) → List (List String × Tree)
  | [] => []
  | (name, t) :: rest =>
    (path ++ [name], t) :: inside (path ++ [name]) t ++ insideEntries path rest

end

-- =============================================================== files

/-- The files below a directory, by place. -/
def files (t : Tree) : List (Place × Contents) :=
  (t.inside []).filterMap fun e =>
    match e.2 with
    | .file c => some (e.1, c)
    | .dir _ => none

/-- The files that are new in a tree or hold something else than before. -/
def changes (before after : Tree) : List (Place × Contents) :=
  after.files.filter fun f => before.files.lookup f.1 != some f.2

end Tree

end ComponentMarkdown.Files
