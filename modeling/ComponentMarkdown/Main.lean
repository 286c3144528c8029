/-
The program. It takes a picture of the files within reach of the request,
runs on that, and then does what the run has done: changed files are put in
their places, and what was written goes out.
-/
import ComponentMarkdown.Cli.Reach

namespace ComponentMarkdown.Main

open Files

-- ========================================================= the picture

/-- A file as it is on disk. -/
def readFile (path : String) : IO Tree := do
  let bytes ← IO.FS.readBinFile path
  return .file <|
    match String.fromUTF8? bytes with
    | some s => .text s.toList
    | none => .binary bytes.toList

/-- Adds to a picture what stands at a path, down to some levels below.
What cannot be read is left out. -/
partial def addPath (levels : Option Nat) (path : String) (place : Place)
    (picture : Tree) : IO Tree := do
  let known := (picture.at? place).isSome
  let real ← IO.FS.realPath path
  if ← real.isDir then
    let mut picture := if known then picture else picture.put place .empty
    unless levels == some 0 do
      for entry in ← real.readDir do
        let name := entry.fileName
        let before := picture
        picture ←
          try
            addPath (levels.map (· - 1)) (Path.join path name)
              (place ++ [name]) before
          catch _ => pure before
    return picture
  else if known then return picture
  else return picture.put place (← readFile path)

/-- Adds to a picture every directory on the way to a path, and what stands
there. -/
def addReach (workingDir : Place) (picture : Tree) (reach : Cli.Reach) :
    IO Tree := do
  let absolute := Path.isAbsolute reach.path
  let mut picture := picture
  let mut path := if absolute then "/" else "."
  let mut place : Place := if absolute then [] else workingDir
  try
    for part in Path.parts reach.path do
      unless Path.isVoid part do
        path := Path.join path part
        place := if part == ".." then place.dropLast else place ++ [part]
        picture ← addPath (some 0) path place picture
    addPath reach.levels path place picture
  catch _ => return picture

-- ========================================================= the results

/-- Gives a file a new text: a new file takes its place. -/
def writeFile (place : Place) (t : Text) : IO Unit := do
  let path := "/" ++ String.intercalate "/" place
  let fresh := path ++ ".new"
  IO.FS.writeFile fresh (String.ofList t)
  IO.FS.rename fresh path

/-- Runs the program in the working directory. -/
def run (arguments : List String) : IO UInt32 := do
  let output ← IO.getStdout
  let errors ← IO.getStderr
  let dir := (← IO.currentDir).toString
  let place := (Path.parts dir).filter (!Path.isVoid ·)
  let reaches := (Cli.Request.ofArguments arguments).reach dir
  let picture ← reaches.foldlM (addReach place) (Tree.empty.put place .empty)
  let setup : Cli.Setup := {
    logFilter := Cli.LogFilter.ofSetting (← IO.getEnv "RUST_LOG")
    color := Cli.Style.areShown (← IO.getEnv "CLICOLOR_FORCE")
      (← IO.getEnv "NO_COLOR") (← IO.getEnv "CLICOLOR") (← output.isTty) }
  let ending := Cli.run setup ⟨picture, place⟩ arguments
  let session := ending.session
  for (place, contents) in Tree.changes picture session.disk.root do
    match contents with
    | .text t => writeFile place t
    | .binary _ => pure ()
  output.putStr session.output
  output.flush
  errors.putStr session.errors
  return ending.exitCode.toUInt32

end ComponentMarkdown.Main

/-- The program's entry. -/
def main (arguments : List String) : IO UInt32 :=
  ComponentMarkdown.Main.run arguments
