/-
Failures that end a command, and how they are reported: what went wrong,
and below it the causes, numbered if there are several.
-/
import ComponentMarkdown.Selection

namespace ComponentMarkdown.Cli

open Files

/-- Why a command ends before its work is done. -/
inductive Failure where
  /-- The nearest settings file cannot be used. -/
  | settings (fault : SettingsFault)
  /-- The settings file that was named cannot be used. -/
  | settingsFile (path : String) (fault : SettingsFault)
  | rule (fault : UnknownRule)
  | selection (fault : SelectionFault)
  | read (path : String) (fault : ReadFault)
  | replace (fault : ReplaceFault)
  deriving DecidableEq, Repr

/-- The report about a file that cannot be read. -/
def readMessage (path : String) : String := "Failed to read file: " ++ path

/-- The report about a file that cannot be replaced. -/
def replaceMessage : ReplaceFault → String
  | .directory path => "Failed to create temp file in: " ++ path
  | .contents path => "Failed to write file: " ++ path
  | .target path => "Failed to replace file: " ++ path

namespace Failure

/-- What went wrong. -/
def message : Failure → String
  | .settings fault => fault.message
  | .settingsFile path _ => "Failed to load configuration: " ++ path
  | .rule fault => fault.message
  | .selection fault => fault.message
  | .read path _ => readMessage path
  | .replace fault => replaceMessage fault

/-- What is behind it, the nearest cause first. -/
def causes : Failure → List String
  | .settings fault => fault.cause?.toList
  | .settingsFile _ fault => fault.message :: fault.cause?.toList
  | .rule _ => []
  | .selection fault => fault.cause?.toList
  | .read _ fault => [fault.message]
  | .replace _ => []

/-- A text whose lines but the first are indented. -/
def indented (indent : String) (s : String) : String :=
  String.join <| s.toList.map fun c =>
    if c = '\n' then "\n" ++ indent else String.singleton c

/-- A number in front of a cause. -/
def numbered (n : Nat) (s : String) : String :=
  let digits := toString n
  String.ofList (List.replicate (5 - digits.length) ' ') ++ digits ++ ": "
    ++ indented "       " s

/-- Causes with their numbers. -/
def numberedFrom (n : Nat) : List String → String
  | [] => ""
  | s :: rest => "\n" ++ numbered n s ++ numberedFrom (n + 1) rest

/-- The whole report. -/
def report (f : Failure) : String :=
  "Error: " ++ f.message ++
    (match f.causes with
     | [] => ""
     | [cause] => "\n\nCaused by:\n    " ++ indented "    " cause
     | causes => "\n\nCaused by:" ++ numberedFrom 0 causes) ++ "\n"

end Failure

end ComponentMarkdown.Cli
