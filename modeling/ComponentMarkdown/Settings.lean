/-
Settings: the suffix of the documents, the rules to run, further custom
elements, and what to leave out. They are read from a YAML mapping in which
every key is optional, no key is unknown, and none comes twice; a text with
nothing in it gives the standard settings.

Settings that are read are checked: every rule exists, and every pattern
to leave out is one. Settings made by hand are not, and a text that is no
pattern leaves nothing out.
-/
import ComponentMarkdown.ElementSet
import ComponentMarkdown.Files.Disk
import ComponentMarkdown.Glob.Pattern
import ComponentMarkdown.Log
import ComponentMarkdown.Yaml.Node

namespace ComponentMarkdown

open Files Glob

-- ============================================================= faults

/-- Why settings cannot be used. -/
inductive SettingsFault where
  | unknownRule (fault : UnknownRule)
  /-- The text is not YAML, or not settings. -/
  | malformed
  | exclude (pattern : String) (fault : PatternFault)
  | unreadable (path : String) (fault : ReadFault)
  deriving DecidableEq, Repr

namespace SettingsFault

/-- What is said of a text that holds no settings. -/
def malformedReason : String := "not a mapping of settings"

/-- The report about a fault. -/
def message : SettingsFault → String
  | .unknownRule fault => fault.message
  | .malformed => "Invalid configuration: " ++ malformedReason
  | .exclude pattern fault =>
    "Invalid exclude pattern '" ++ pattern ++ "': " ++ fault.message
  | .unreadable path fault =>
    "IO error reading " ++ path ++ ": " ++ fault.message

/-- The fault behind a fault. -/
def cause? : SettingsFault → Option String
  | .unknownRule _ => none
  | .malformed => some malformedReason
  | .exclude _ fault => some fault.message
  | .unreadable _ fault => some fault.message

end SettingsFault

-- ============================================================ settings

/-- What the program is told about a set of documents. -/
structure Settings where
  markdownSuffix : String
  rules : List String
  customElements : List String
  exclude : List String
  deriving DecidableEq, Repr

namespace Settings

/-- The settings where nothing is set: all rules, for Markdown files. -/
def standard : Settings :=
  ⟨Transformer.markdownSuffix, [Registry.everything], [], []⟩

/-- The name of the file that holds settings. -/
def fileName : String := "docs-compat.yml"

-- ============================================================ reading

/-- A text list as strings. -/
def strings? (d : Yaml.Document) (n : Yaml.Node) : Option (List String) :=
  (d.texts? n).map fun ts => ts.map String.ofList

/-- Sets what one key says. -/
def set (d : Yaml.Document) (s : Settings) (key : String)
    (value : Yaml.Node) : Option Settings :=
  if key = "markdown-suffix" then
    (d.text? value).map fun t => { s with markdownSuffix := String.ofList t }
  else if key = "rules" then
    (strings? d value).map fun l => { s with rules := l }
  else if key = "custom-elements" then
    (strings? d value).map fun l => { s with customElements := l }
  else if key = "exclude" then
    (strings? d value).map fun l => { s with exclude := l }
  else none

/-- Sets what the pairs of a mapping say; a key may come only once. -/
def setAll (d : Yaml.Document) (seen : List String) (s : Settings) :
    List (Yaml.Node × Yaml.Node) → Option Settings
  | [] => some s
  | (key, value) :: rest =>
    (d.text? key).bind fun t =>
      let key := String.ofList t
      if seen.contains key then none
      else
        (set d s key value).bind fun s => setAll d (key :: seen) s rest

/-- The settings that a YAML document describes. -/
def ofDocument? (d : Yaml.Document) : Option Settings :=
  match d.root with
  | .mapping pairs => setAll d [] standard pairs
  | .scalar [] true => some standard
  | _ => none

-- =========================================================== checking

/-- The first fault in the rules. -/
def ruleFault? (s : Settings) : Option SettingsFault :=
  (s.rules.find? fun name =>
      name != Registry.everything && !Registry.contains name).map
    fun name => .unknownRule ⟨name⟩

/-- The first fault in the patterns. -/
def excludeFault? (s : Settings) : Option SettingsFault :=
  s.exclude.findSome? fun p =>
    match Pattern.ofText? p.toList with
    | .ok _ => none
    | .error fault => some (.exclude p fault)

/-- Settings that can be used. -/
def checked (s : Settings) : Except SettingsFault Settings :=
  match s.ruleFault?.or s.excludeFault? with
  | some fault => .error fault
  | none => .ok s

/-- Reads and checks settings. -/
def ofText (t : Text) : Except SettingsFault Settings :=
  if t.trim.isEmpty then standard.checked
  else
    match (Yaml.document? t).bind ofDocument? with
    | some s => s.checked
    | none => .error .malformed

-- =========================================================== documents

/-- Whether a path is to be left out. -/
def excludes (s : Settings) (path : String) : Bool :=
  s.exclude.any fun p =>
    match Pattern.ofText? p.toList with
    | .ok pattern => pattern.isMatch path.toList
    | .error _ => false

/-- All custom elements. -/
def elements (s : Settings) : ElementSet :=
  ElementSet.builtin.extend s.customElements

/-- The transformer for the documents. -/
def transformer (s : Settings) : Except UnknownRule Transformer :=
  (Registry.pipeline s.rules).map fun p => ⟨s.markdownSuffix, p⟩

-- =============================================================== files

/-- The settings in a file, and what to note in the log. -/
def load (d : Disk) (path : String) :
    Except SettingsFault (Settings × List Log.Entry) :=
  match d.read path with
  | .error fault => .error (.unreadable path fault)
  | .ok t => (ofText t).map fun s => (s, [Log.configLoaded path])

/-- The nearest settings file, in a directory or above it. -/
def file? (d : Disk) (dir : String) : Option String :=
  ((Path.ancestors dir).map (Path.join · fileName)).find? d.isFile

/-- The settings for a directory: those of the nearest file, or the
standard ones. -/
def discover (d : Disk) (dir : String) :
    Except SettingsFault (Settings × List Log.Entry) :=
  match file? d dir with
  | some path => load d path
  | none => .ok (standard, [])

end Settings

end ComponentMarkdown
