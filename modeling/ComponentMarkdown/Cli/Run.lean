/-
Running the program: from arguments, environment and disk to an exit code,
what is written, and the disk afterwards.

The settings are read first, for every command, so a settings file that
cannot be used stops them all.
-/
import ComponentMarkdown.Cli.Arguments
import ComponentMarkdown.Cli.Check

namespace ComponentMarkdown.Cli

open Files

-- ======================================================= what is written

/-- The name and version of the program. -/
def versionLine : String := "docs-compat 0.1.0"

/-- How the program is used. -/
def usage : String :=
  String.join [
    "Usage: docs-compat [--config <CONFIG>] <COMMAND>\n",
    "\n",
    "Commands:\n",
    "  convert          Rewrite documents\n",
    "  check            Report documents the transform would change\n",
    "  list-rules       List all available rules\n",
    "  custom-elements  Print the custom-element allow-list as JSON\n"]

/-- The end of a run. -/
structure Ending where
  exitCode : Nat
  session : Session

/-- The end of a run that failed. -/
def Ending.failed (f : Failure) (s : Session) : Ending := ⟨1, s.fail f⟩

-- ============================================================= settings

/-- Reads the settings: those of the named file, or the nearest. -/
def readSettings (d : Disk) (file? : Option String) :
    Except Failure (Settings × List Log.Entry) :=
  match file? with
  | some path =>
    (Settings.load d path).mapError (Failure.settingsFile path)
  | none =>
    (Settings.discover d d.workingPath).mapError
      Failure.settings

/-- The transformer for the named rules, which win over those of the
settings. -/
def chooseTransformer (settings : Settings) (rules : List String) :
    Except UnknownRule Transformer :=
  if rules.isEmpty then settings.transformer
  else
    (Registry.pipeline rules).map fun p => ⟨settings.markdownSuffix, p⟩

-- ============================================================= commands

/-- Chooses transformer and documents, and goes on with both. -/
def withDocuments (setup : Setup) (settings : Settings)
    (files rules : List String) (s : Session)
    (next : Transformer → List String → Session → Ending) : Ending :=
  match chooseTransformer settings rules with
  | .error fault => .failed (.rule fault) s
  | .ok t =>
    let (notes, selected) := Selection.select s.disk settings files
    let s := s.log setup notes
    match selected with
    | .error fault => .failed (.selection fault) s
    | .ok paths => next t paths s

/-- Converts documents. -/
def convert (a : Access) (setup : Setup) (mode : ConvertMode)
    (t : Transformer) (paths : List String) (s : Session) : Ending :=
  match mode.all a setup t paths s with
  | (s, .error failure) => .failed failure s
  | (s, .ok changed) => ⟨0, s.log setup [Log.finished changed]⟩

/-- Checks documents. The exit code tells whether any would change. -/
def check (setup : Setup) (json : Bool) (t : Transformer)
    (paths : List String) (s : Session) : Ending :=
  match checkAll setup t json .empty paths s with
  | (s, .error failure) => .failed failure s
  | (s, .ok found) =>
    let s :=
      if json then s
      else (found.lines setup.color).foldl Session.printLine s
    ⟨if 0 < found.changing then 1 else 0, s⟩

/-- Lists the rules. -/
def listRules (setup : Setup) (s : Session) : Session :=
  let s := s.printLine
    (Style.bold.apply setup.color "Available rules (in execution order):")
  Registry.list.foldl
    (fun s rule => s.printLine
      ("  " ++ Style.cyan.apply setup.color rule.1 ++ " - " ++ rule.2)) s

/-- Runs one command. -/
def runCommand (setup : Setup) (settings : Settings) (s : Session) :
    Command → Ending
  | .convert files rules inPlace checkOnly verbose =>
    withDocuments setup settings files rules s
      (convert Disk.access setup ⟨inPlace, checkOnly, verbose⟩)
  | .check files rules json =>
    withDocuments setup settings files rules s (check setup json)
  | .listRules => ⟨0, listRules setup s⟩
  | .customElements =>
    ⟨0, s.printLine (Json.prettyStrings settings.elements.names)⟩

-- ============================================================== the run

/-- Runs the program. -/
def run (setup : Setup) (d : Disk) (arguments : List String) : Ending :=
  let s := Session.start d
  match Request.ofArguments arguments with
  | .version => ⟨0, s.printLine versionLine⟩
  | .help => ⟨0, s.print usage⟩
  | .misuse => ⟨2, { s with errors := usage }⟩
  | .run file? command =>
    match readSettings d file? with
    | .error failure => .failed failure s
    | .ok (settings, notes) =>
      runCommand setup settings (s.log setup notes) command

end ComponentMarkdown.Cli
