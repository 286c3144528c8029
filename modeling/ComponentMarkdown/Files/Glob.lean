/-
Globs: the paths on a disk that a pattern names. The pattern is cut at its
slashes and followed component by component. A component without special
characters is looked up; any other is matched against every entry of the
directory reached so far, in order of their names. `**` goes on with every
entry below.

Single and double dots are entries of no directory, so a component with
special characters reaches them only if it starts with a dot of its own.

A listing tells directories from files, so an entry can be known for a
directory although its path is too long to be followed. A glob that has to
list it names nothing at all.
-/
import ComponentMarkdown.Files.Disk
import ComponentMarkdown.Glob.Pattern

namespace ComponentMarkdown.Files

open Glob

-- ========================================================== components

/-- The components of a glob behind its start. A slash at the end starts
no component. -/
def globComponents (s : Text) : List Text :=
  let parts := splitSlash s
  if parts.getLast? == some [] then parts.dropLast else parts

/-- A recursive component behind another adds nothing. -/
def mergeRecursive : List Pattern → List Pattern
  | [] => []
  | p :: rest =>
    match mergeRecursive rest with
    | [] => [p]
    | q :: more =>
      if p.isRecursive && q.isRecursive then q :: more else p :: q :: more

-- =========================================================== listings

/-- A path that a glob reaches, and whether a directory is known to be
there. -/
structure Spot where
  path : String
  isDir : Bool
  deriving DecidableEq, Repr

/-- A directory that cannot be listed. -/
structure ListingFault where
  path : String
  fault : ReadFault
  deriving DecidableEq, Repr

/-- The report about a directory that cannot be listed. -/
def ListingFault.message (f : ListingFault) : String :=
  "attempting to read \x60" ++ f.path ++ "\x60 resulted in an error: "
    ++ f.fault.message

namespace Disk

/-- The path of an entry of a directory, as a glob writes it: entries of
the working directory stand alone. -/
def entryPath (dir entry : String) : String :=
  if Path.same dir "." then entry else Path.join dir entry

/-- A path, and whether it leads to a directory. -/
def spot (d : Disk) (path : String) : Spot := ⟨path, d.isDir path⟩

/-- The directory that stands where it is to be listed. -/
def opened (d : Disk) (s : Spot) : Except ListingFault Tree :=
  (d.look s.path).mapError (ListingFault.mk s.path)

/-- Every entry of a directory, in order of their names. -/
def listing (d : Disk) (s : Spot) :
    Except ListingFault (List (String × Spot)) :=
  (d.opened s).map fun t =>
    t.entries.map fun e => (e.1, ⟨entryPath s.path e.1, e.2.isDir⟩)

/-- Everything below a directory, each directory before what it holds. -/
def listingBelow (d : Disk) (s : Spot) :
    Except ListingFault (List (String × Spot)) :=
  (d.opened s).map fun t =>
    (t.inside []).filterMap fun e =>
      match e.1 with
      | [] => none
      | first :: rest =>
        some (rest.getLastD first,
          ⟨rest.foldl Path.join (entryPath s.path first), e.2.isDir⟩)

/-- What goes wrong when an entry is listed in turn. -/
def listingFault? (d : Disk) (s : Spot) : Option ListingFault :=
  if s.isDir then
    match d.opened s with
    | .error fault => some fault
    | .ok _ => none
  else none

end Disk

-- ========================================================== following

/-- What a glob comes upon in turn. -/
abbrev Find := Except ListingFault Spot

/-- Why a glob names nothing at all. -/
inductive GlobFault where
  | pattern (fault : PatternFault)
  | listing (fault : ListingFault)
  deriving DecidableEq, Repr

namespace Disk

/-- What a component leads to at every entry below a directory. A directory
is listed in turn, behind what it leads to itself. -/
def followBelow (d : Disk) (s : Spot) (found : String × Spot → List Find) :
    List Find :=
  match d.listingBelow s with
  | .error fault => [.error fault]
  | .ok entries =>
    entries.flatMap fun e =>
      found e ++ (d.listingFault? e.2).toList.map .error

/-- What the components lead to from a path on. -/
def follow (d : Disk) : List Pattern → Spot → List Find
  | [], s => [.ok s]
  | p :: rest, s =>
    match p.literal? with
    | some name =>
      let name := String.ofList name
      let next := entryPath s.path name
      let found :=
        if name == "." || name == ".." then s.isDir else d.hasPath next
      if found then follow d rest (d.spot next) else []
    | none =>
      if !s.isDir then []
      else if p.isRecursive then
        match rest with
        | [] => d.followBelow s fun e => if e.2.isDir then [.ok e.2] else []
        | q :: rest =>
          d.followBelow s fun e =>
            if q.isMatch e.1.toList then follow d rest e.2 else []
      else
        let dots :=
          if p.startsWithDot then
            ["..", "."].filter fun dot => p.isMatch dot.toList
          else []
        match d.listing s with
        | .error fault => [.error fault]
        | .ok entries =>
          (dots.flatMap fun dot =>
              follow d rest (d.spot (Path.join s.path dot)))
            ++ entries.flatMap fun e =>
              if p.isMatch e.1.toList then follow d rest e.2 else []

/-- The paths that a glob names, in order. A slash at its end restricts
them to directories. -/
def glob (d : Disk) (pattern : String) : Except GlobFault (List String) :=
  let s := pattern.toList
  let absolute := Path.isAbsolute pattern
  let components := globComponents (if absolute then s.drop 1 else s)
  match Pattern.ofText? s, components.mapM Pattern.ofText? with
  | .error fault, _ => .error (.pattern fault)
  | .ok _, .error fault => .error (.pattern fault)
  | .ok _, .ok patterns =>
    let start := d.spot (if absolute then "/" else ".")
    match (d.follow (mergeRecursive patterns) start).mapM id with
    | .error fault => .error (.listing fault)
    | .ok spots =>
      let wanted :=
        if s.getLast? == some '/' then spots.filter Spot.isDir else spots
      .ok (wanted.map Spot.path)

end Disk

end ComponentMarkdown.Files
