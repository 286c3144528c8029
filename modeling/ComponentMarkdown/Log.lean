/-
Log entries: what happened, how much it matters, and which part of the
program says so. An entry is a value like any other; whether it is shown is
decided where entries meet a filter.
-/
import ComponentMarkdown.Text.Printable
import ComponentMarkdown.Transformer

namespace ComponentMarkdown

namespace Log

/-- How much an entry matters, the least important last. -/
inductive Level where
  | error
  | warn
  | info
  | debug
  | trace
  deriving DecidableEq, Repr

namespace Level

/-- The word that stands in front of an entry. -/
def word : Level → String
  | .error => "ERROR"
  | .warn => "WARN"
  | .info => "INFO"
  | .debug => "DEBUG"
  | .trace => "TRACE"

/-- How many details a level lets through, and so its place in the
order. -/
def detail : Level → Nat
  | .error => 1
  | .warn => 2
  | .info => 3
  | .debug => 4
  | .trace => 5

end Level

/-- An entry: its level, the part of the program it comes from, a message,
and named values as they are shown. -/
structure Entry where
  level : Level
  target : String
  message : String
  fields : List (String × String)
  deriving DecidableEq, Repr

/-- The entry as a line. -/
def Entry.line (e : Entry) : String :=
  e.level.word ++ " " ++ e.target ++ ": " ++ e.message
    ++ String.join (e.fields.map fun f => " " ++ f.1 ++ "=" ++ f.2) ++ "\n"

-- ============================================================= values

/-- The small hexadecimal digits of a number. -/
def hex (n : Nat) : String := String.ofList (Nat.toDigits 16 n)

/-- A character inside a quoted value. -/
def escape (c : Char) : String :=
  if c = '"' then "\\\""
  else if c = '\\' then "\\\\"
  else if c = '\n' then "\\n"
  else if c = '\r' then "\\r"
  else if c = '\t' then "\\t"
  else if c = '\x00' then "\\0"
  else if isPrintable c then String.singleton c
  else "\\u\x7b" ++ hex c.toNat ++ "\x7d"

/-- A value in quotes. -/
def quoted (s : String) : String :=
  "\"" ++ String.join (s.toList.map escape) ++ "\""

-- ============================================================ messages

/-- The part of the program that cuts documents into segments. -/
def segmentTarget : String := "docs_compat::segment"

/-- The part of the program that runs rules. -/
def ruleTarget : String := "docs_compat::rule"

/-- The part of the program that transforms documents. -/
def transformTarget : String := "docs_compat::transform"

/-- The part of the program that reads configurations. -/
def configTarget : String := "docs_compat::config"

/-- The part of the program that selects documents. -/
def selectionTarget : String := "docs_compat::utils::glob_expand"

/-- The program itself. -/
def programTarget : String := "docs_compat"

/-- A segment was cut. -/
def segmentCut (s : Segment) : Entry :=
  ⟨.trace, segmentTarget, "segment",
    [("kind", if s.isProse then "Prose" else "Verbatim"),
     ("start", toString s.offset), ("end", toString s.stop)]⟩

/-- A rule ran. -/
def ruleRan (name : String) (count : Nat) : Entry :=
  ⟨.debug, ruleTarget, "Running rule",
    [("rule", quoted name), ("rewrites", toString count)]⟩

/-- A document was transformed. -/
def transformed (id : String) (count : Nat) : Entry :=
  ⟨.debug, transformTarget, "Transformed document",
    [("id", quoted id), ("rewrites", toString count)]⟩

/-- A configuration was read. -/
def configLoaded (path : String) : Entry :=
  ⟨.debug, configTarget, "Loaded configuration", [("path", path)]⟩

/-- A pattern names no file. -/
def nothingMatched (pattern : String) : Entry :=
  ⟨.warn, selectionTarget, "No files matched pattern", [("pattern", pattern)]⟩

/-- A document is excluded. -/
def excluded (path : String) : Entry :=
  ⟨.debug, selectionTarget, "Excluded by configuration", [("path", path)]⟩

/-- A conversion is over. -/
def finished (changedFiles : Nat) : Entry :=
  ⟨.info, programTarget, "Conversion finished",
    [("changed_files", toString changedFiles)]⟩

end Log

-- ============================================================ documents

/-- What happens while a document is transformed, in order. -/
def Transformer.journal (t : Transformer) (source : Text) (id : String) :
    List Log.Entry :=
  if t.isEligible id then
    let steps := (Segment.ofDocument source).flatMap fun s =>
      Log.segmentCut s ::
        if s.isProse then
          (t.pipeline.counts s.text).map fun c => Log.ruleRan c.1 c.2
        else []
    match t.transform source id with
    | .unchanged => steps
    | .changed _ tally => steps ++ [Log.transformed id tally.total]
  else []

end ComponentMarkdown
