/-
Reach: the parts of a file system that a request may look at. A picture of
just these parts is enough to run the request on.
-/
import ComponentMarkdown.Cli.Run

namespace ComponentMarkdown.Cli

open Files Glob

/-- A path and how many levels below it may be looked at; without a number,
all. -/
structure Reach where
  path : String
  levels : Option Nat
  deriving DecidableEq, Repr

namespace Reach

/-- One path and nothing below it. -/
def only (path : String) : Reach := ⟨path, some 0⟩

/-- What a path or pattern may lead to. The parts of a pattern in front of
its first special character name where to look, and each part from there on
goes down one level, but for the one that goes down any number. -/
def ofArgument (argument : String) : Reach :=
  let parts := Path.parts argument
  let fixed := parts.takeWhile fun part => !hasMagic part.toList
  let free := parts.drop fixed.length
  if free.isEmpty then only argument
  else
    ⟨if fixed.isEmpty then "." else String.intercalate "/" fixed ++ "/",
      if free.contains "**" then none else some free.length⟩

/-- The files that may hold the settings. -/
def settings (workingDir : String) : Option String → List Reach
  | some path => [only path]
  | none =>
    (Path.ancestors workingDir).map fun dir =>
      only (Path.join dir Settings.fileName)

end Reach

/-- The files that a command works on. -/
def Command.files : Command → List String
  | .convert files _ _ _ _ => files
  | .check files _ _ => files
  | .listRules => []
  | .customElements => []

/-- What a request may look at. -/
def Request.reach (workingDir : String) : Request → List Reach
  | .run file? command =>
    Reach.settings workingDir file? ++ command.files.map Reach.ofArgument
  | .version => []
  | .help => []
  | .misuse => []

end ComponentMarkdown.Cli
