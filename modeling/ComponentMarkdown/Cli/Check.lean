/-
Checking documents: which of them a conversion would change, and how, as
lines of JSON or as a list with a summary. Nothing is written to the disk.
-/
import ComponentMarkdown.Cli.Convert
import ComponentMarkdown.Json.Quoted

namespace ComponentMarkdown.Cli

open Files

/-- What a check found in one document. -/
structure CheckRecord where
  path : String
  wouldChange : Bool
  tally : Tally

namespace CheckRecord

/-- What a check finds in a document. -/
def ofDocument (t : Transformer) (path : String) (source : Text) :
    CheckRecord :=
  match t.transform source path with
  | .changed _ tally => ⟨path, true, tally⟩
  | .unchanged => ⟨path, false, .empty⟩

/-- A truth value in JSON. -/
def jsonBool (b : Bool) : String := if b then "true" else "false"

/-- The record as a line of JSON. -/
def json (r : CheckRecord) : String :=
  let counts := r.tally.entries.map fun e =>
    Json.quoted e.1 ++ ":" ++ toString e.2
  "\x7b\"file_path\":" ++ Json.quoted r.path
    ++ ",\"would_change\":" ++ jsonBool r.wouldChange
    ++ ",\"rewrites\":" ++ toString r.tally.total
    ++ ",\"by_rule\":\x7b" ++ String.intercalate "," counts ++ "\x7d\x7d"

end CheckRecord

/-- What a check found in all documents so far. -/
structure CheckSummary where
  files : Nat
  changing : Nat
  tally : Tally

namespace CheckSummary

/-- Nothing found yet. -/
def empty : CheckSummary := ⟨0, 0, .empty⟩

/-- Takes in what was found in one more document. -/
def add (s : CheckSummary) (r : CheckRecord) : CheckSummary :=
  if r.wouldChange then
    ⟨s.files + 1, s.changing + 1, s.tally.merge r.tally⟩
  else ⟨s.files + 1, s.changing, s.tally⟩

/-- How many documents would stay as they are. -/
def clean (s : CheckSummary) : Nat := s.files - s.changing

/-- The summary as lines. -/
def lines (s : CheckSummary) (color : Bool) : List String :=
  let tick := Style.green.apply color "✓"
  let mark := if 0 < s.changing then Style.red.apply color "✗" else tick
  ["", Style.bold.apply color "=== Summary ===",
   "Total files:         " ++ toString s.files,
   "Files to rewrite:    " ++ toString s.changing ++ " " ++ mark,
   "Clean files:         " ++ toString s.clean ++ " " ++ tick]
  ++ (if s.tally.isEmpty then []
      else
        ["", Style.bold.apply color "Rewrites by rule:"]
          ++ countLines color s.tally)
  ++ ["", "Total rewrites:      " ++ toString s.tally.total]

end CheckSummary

/-- Shows what was found in one document. -/
def showRecord (setup : Setup) (json : Bool) (r : CheckRecord) (s : Session) :
    Session :=
  if json then s.printLine r.json
  else if r.wouldChange then
    s.printLine (changeLine (Style.red.apply setup.color "✗") r.path r.tally)
  else s

/-- Checks documents up to the first failure. -/
def checkAll (setup : Setup) (t : Transformer) (json : Bool)
    (found : CheckSummary) :
    List String → Session → Session × Except Failure CheckSummary
  | [], s => (s, .ok found)
  | path :: rest, s =>
    match s.disk.read path with
    | .error fault => (s, .error (.read path fault))
    | .ok source =>
      let r := CheckRecord.ofDocument t path source
      let s := s.log setup (t.journal source path)
      checkAll setup t json (found.add r) rest (showRecord setup json r s)

end ComponentMarkdown.Cli
