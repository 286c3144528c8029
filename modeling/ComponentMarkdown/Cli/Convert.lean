/-
Converting documents: each is read, transformed and, as asked for, written
to the output, put in place of the file, or only reported. Documents are
handled one by one, so what was written before a failure stays. How files
are read and replaced is left to an `Access`: the program works on the disk
straight away, and a system may refuse some of the steps.
-/
import ComponentMarkdown.Cli.Session

namespace ComponentMarkdown.Cli

open Files

/-- How to convert. -/
structure ConvertMode where
  inPlace : Bool
  check : Bool
  verbose : Bool
  deriving DecidableEq, Repr

/-- The counts of a tally, one line for each rule. -/
def countLines (color : Bool) (t : Tally) : List String :=
  t.entries.map fun e =>
    "    " ++ Style.cyan.apply color e.1 ++ ": " ++ toString e.2

/-- The line about a document that changed. -/
def changeLine (verb path : String) (t : Tally) : String :=
  "  " ++ verb ++ " " ++ path ++ " - " ++ toString t.total ++ " rewrite(s)"

namespace ConvertMode

/-- Reports a document that no rule changes, and passes it on. -/
def unchanged (m : ConvertMode) (setup : Setup) (source : Text)
    (s : Session) : Session :=
  let s :=
    if m.verbose then
      s.remark ("  " ++ Style.green.apply setup.color "✓" ++ " unchanged")
    else s
  if m.inPlace || m.check then s else s.print (String.ofList source)

/-- Reports a document that changed. -/
def reportChange (m : ConvertMode) (setup : Setup) (path : String) (t : Tally)
    (s : Session) : Session :=
  if m.verbose || m.check then
    (changeLine (if m.check then "Would fix" else "Fixed") path t
      :: countLines setup.color t).foldl Session.remark s
  else s

/-- Writes a document that changed to where it belongs. -/
def write (m : ConvertMode) (a : Access) (path : String) (t : Text)
    (s : Session) : Session × Option Failure :=
  if m.check then (s, none)
  else if m.inPlace then
    let (d, fault?) := a.replace s.disk path t
    ({ s with disk := d }, fault?.map .replace)
  else (s.print (String.ofList t), none)

/-- Converts one document: whether it changed, or why that failed. -/
def one (m : ConvertMode) (a : Access) (setup : Setup) (t : Transformer)
    (path : String) (s : Session) : Session × Except Failure Bool :=
  let s := if m.verbose then s.remark ("Processing: " ++ path) else s
  match a.read s.disk path with
  | .error fault => (s, .error (.read path fault))
  | .ok source =>
    let s := s.log setup (t.journal source path)
    match t.transform source path with
    | .unchanged => (m.unchanged setup source s, .ok false)
    | .changed text tally =>
      match m.write a path text (m.reportChange setup path tally s) with
      | (s, none) => (s, .ok true)
      | (s, some failure) => (s, .error failure)

/-- Converts documents up to the first failure: how many changed. -/
def all (m : ConvertMode) (a : Access) (setup : Setup) (t : Transformer) :
    List String → Session → Session × Except Failure Nat
  | [], s => (s, .ok 0)
  | path :: rest, s =>
    match m.one a setup t path s with
    | (s, .error failure) => (s, .error failure)
    | (s, .ok changed) =>
      let (s, count) := all m a setup t rest s
      (s, count.map (· + if changed then 1 else 0))

end ConvertMode

end ComponentMarkdown.Cli
