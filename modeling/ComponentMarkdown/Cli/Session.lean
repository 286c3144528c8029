/-
A session: what a command has written so far, and the disk as it left it.
Document text goes to the output; progress, the log and reports go beside
it.
-/
import ComponentMarkdown.Cli.Failure
import ComponentMarkdown.Cli.LogFilter
import ComponentMarkdown.Cli.Style

namespace ComponentMarkdown.Cli

open Files

/-- What a command is run with, besides its arguments. -/
structure Setup where
  logFilter : LogFilter
  color : Bool

/-- Where a command stands. -/
structure Session where
  output : String
  errors : String
  disk : Disk

namespace Session

/-- The start of a command. -/
def start (d : Disk) : Session := ⟨"", "", d⟩

/-- Writes to the output. -/
def print (s : Session) (text : String) : Session :=
  { s with output := s.output ++ text }

/-- Writes a line to the output. -/
def printLine (s : Session) (text : String) : Session :=
  s.print (text ++ "\n")

/-- Writes a line beside the output. -/
def remark (s : Session) (text : String) : Session :=
  { s with errors := s.errors ++ text ++ "\n" }

/-- Writes the log entries that the filter shows. -/
def log (s : Session) (setup : Setup) (entries : List Log.Entry) : Session :=
  { s with
    errors := s.errors
      ++ String.join ((entries.filter setup.logFilter.shows).map
        Log.Entry.line) }

/-- Reports a failure. -/
def fail (s : Session) (f : Failure) : Session :=
  { s with errors := s.errors ++ f.report }

end Session

end ComponentMarkdown.Cli
