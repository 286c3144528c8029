/-
Selection: the documents that paths and patterns on the command line name.

A pattern gives the files it matches; anything else is a path that must
lead somewhere. Of several spellings of one path the first is kept, in its
place, and then whatever the settings leave out is dropped.
-/
import ComponentMarkdown.Files.Glob
import ComponentMarkdown.Settings

namespace ComponentMarkdown

open Files Glob

/-- Why documents cannot be selected. -/
inductive SelectionFault where
  | missing (path : String)
  | glob (text : String) (fault : GlobFault)
  deriving DecidableEq, Repr

namespace SelectionFault

/-- The report about a fault. -/
def message : SelectionFault → String
  | .missing path => "File not found: " ++ path
  | .glob text (.pattern _) => "Invalid glob pattern: " ++ text
  | .glob text (.listing _) => "Failed to read glob match for: " ++ text

/-- The fault behind a fault. -/
def cause? : SelectionFault → Option String
  | .missing _ => none
  | .glob _ (.pattern fault) => some fault.message
  | .glob _ (.listing fault) => some fault.message

end SelectionFault

namespace Selection

/-- The paths that one argument names. -/
def named (d : Disk) (argument : String) :
    Except SelectionFault (List String) :=
  if hasMagic argument.toList then
    match d.glob argument with
    | .error fault => .error (.glob argument fault)
    | .ok paths => .ok (paths.filter d.isFile)
  else if d.hasPath argument then .ok [argument]
  else .error (.missing argument)

/-- What to note in the log about the paths of one argument. -/
def note (argument : String) (paths : List String) : List Log.Entry :=
  if paths.isEmpty then [Log.nothingMatched argument] else []

/-- The paths that the arguments name, up to the first fault, and what to
note in the log. -/
def gather (d : Disk) :
    List String → List Log.Entry × Except SelectionFault (List String)
  | [] => ([], .ok [])
  | argument :: rest =>
    match named d argument with
    | .error fault => ([], .error fault)
    | .ok paths =>
      let (notes, more) := gather d rest
      (note argument paths ++ notes, more.map (paths ++ ·))

/-- The first spelling of every path. -/
def firstSpellings : List String → List String
  | [] => []
  | path :: rest =>
    path :: (firstSpellings rest).filter fun p => !Path.same path p

/-- The documents that arguments select, and what to note in the log. -/
def select (d : Disk) (s : Settings) (arguments : List String) :
    List Log.Entry × Except SelectionFault (List String) :=
  match gather d arguments with
  | (notes, .error fault) => (notes, .error fault)
  | (notes, .ok paths) =>
    let paths := firstSpellings paths
    (notes ++ (paths.filter s.excludes).map Log.excluded,
      .ok (paths.filter fun p => !s.excludes p))

end Selection

end ComponentMarkdown
