/-
The command line: a command, its options in any order, and the files it
works on. The settings file can be named before the command or behind it.

An option that takes a value takes it from the same word, behind an equals
sign or, for a single letter, directly, or else from the next word, which
then may not itself look like an option. Words behind a double hyphen are
files. No option may come twice, but for the names of rules.
-/
namespace ComponentMarkdown.Cli

/-- What the program is asked to do. -/
inductive Command where
  | convert (files rules : List String) (inPlace check verbose : Bool)
  | check (files rules : List String) (json : Bool)
  | listRules
  | customElements
  deriving DecidableEq, Repr

/-- What a command line comes to. -/
inductive Request where
  | run (settingsFile : Option String) (command : Command)
  | version
  | help
  | misuse
  deriving DecidableEq, Repr

-- ============================================================ commands

/-- The options without a value. -/
inductive Flag where
  | inPlace
  | check
  | verbose
  | json
  deriving DecidableEq, Repr

/-- The commands by name. -/
inductive CommandName where
  | convert
  | check
  | listRules
  | customElements
  deriving DecidableEq, Repr

namespace CommandName

/-- The command of a name. -/
def ofString? (s : String) : Option CommandName :=
  if s = "convert" then some .convert
  else if s = "check" then some .check
  else if s = "list-rules" then some .listRules
  else if s = "custom-elements" then some .customElements
  else none

/-- The flag that a letter stands for. -/
def letter? : CommandName → Char → Option Flag
  | .convert, 'i' => some .inPlace
  | .convert, 'c' => some .check
  | .convert, 'v' => some .verbose
  | _, _ => none

/-- The flag that a word stands for. -/
def word? : CommandName → String → Option Flag
  | .convert, s =>
    if s = "in-place" then some .inPlace
    else if s = "check" then some .check
    else if s = "verbose" then some .verbose
    else none
  | .check, s => if s = "json" then some .json else none
  | _, _ => none

/-- Whether the command works on files by rules. -/
def takesFiles : CommandName → Bool
  | .convert => true
  | .check => true
  | _ => false

end CommandName

-- ============================================================== words

/-- A word of the command line. -/
inductive Word where
  /-- A double hyphen. -/
  | stop
  /-- A long option, with what stands behind its equals sign. -/
  | long (name : String) (value : Option String)
  /-- Letters behind a hyphen. -/
  | letters (cs : List Char)
  | plain (s : String)
  deriving DecidableEq, Repr

/-- Reads a word. A lone hyphen is a name like any other. -/
def Word.ofString (s : String) : Word :=
  match s.toList with
  | ['-', '-'] => .stop
  | '-' :: '-' :: rest =>
    match rest.dropWhile (· != '=') with
    | [] => .long (String.ofList rest) none
    | _ :: value =>
      .long (String.ofList (rest.takeWhile (· != '=')))
        (some (String.ofList value))
  | '-' :: c :: rest => .letters (c :: rest)
  | _ => .plain s

/-- Whether a word can be the value of the option before it. -/
def isValue (s : String) : Bool :=
  match Word.ofString s with
  | .plain _ => true
  | _ => false

-- ============================================================ commands

/-- What a command was given so far, the last first. -/
structure Given where
  settingsFile : Option String
  flags : List Flag
  rules : List String
  files : List String
  deriving DecidableEq, Repr

namespace Given

/-- Nothing given. -/
def nothing : Given := ⟨none, [], [], []⟩

/-- One more flag, unless it was given. -/
def addFlag? (g : Given) (f : Flag) : Option Given :=
  if g.flags.contains f then none else some { g with flags := f :: g.flags }

/-- The settings file, unless one was given or its name is empty. -/
def setFile? (g : Given) (path : String) : Option Given :=
  if g.settingsFile.isSome || path.isEmpty then none
  else some { g with settingsFile := some path }

/-- One more rule. -/
def addRule (g : Given) (name : String) : Given :=
  { g with rules := name :: g.rules }

/-- One more file. -/
def addFile (g : Given) (path : String) : Given :=
  { g with files := path :: g.files }

/-- What was given to a command, as a request. -/
def request (g : Given) (outer : Option String) (name : CommandName) :
    Request :=
  let files := g.files.reverse
  let rules := g.rules.reverse
  if name.takesFiles && files.isEmpty then .misuse
  else
    .run (g.settingsFile.or outer) <|
      match name with
      | .convert =>
        .convert files rules (g.flags.contains .inPlace)
          (g.flags.contains .check) (g.flags.contains .verbose)
      | .check => .check files rules (g.flags.contains .json)
      | .listRules => .listRules
      | .customElements => .customElements

end Given

/-- What letters behind a hyphen come to. -/
inductive Letters where
  | given (g : Given)
  /-- The last letter wants a value from the next word. -/
  | wantsRule (g : Given)
  | help
  | misuse

/-- Reads letters behind a hyphen. What follows the letter of a rule is its
name. -/
def readLetters (name : CommandName) (g : Given) : List Char → Letters
  | [] => .given g
  | c :: rest =>
    if c = 'h' then .help
    else if c = 'r' && name.takesFiles then
      match rest with
      | [] => .wantsRule g
      | '=' :: value => .given (g.addRule (String.ofList value))
      | value => .given (g.addRule (String.ofList value))
    else
      match (name.letter? c).bind g.addFlag? with
      | some g => readLetters name g rest
      | none => .misuse

/-- Reads the words behind a command. -/
def readCommand (outer : Option String) (name : CommandName) (g : Given) :
    List String → Request
  | [] => g.request outer name
  | word :: rest =>
    match Word.ofString word with
    | .plain s =>
      if name.takesFiles then readCommand outer name (g.addFile s) rest
      else .misuse
    | .stop =>
      if rest.isEmpty || name.takesFiles then
        (rest.foldl Given.addFile g).request outer name
      else .misuse
    | .long option (some value) =>
      if option = "config" then
        match g.setFile? value with
        | some g => readCommand outer name g rest
        | none => .misuse
      else if option = "rule" && name.takesFiles then
        readCommand outer name (g.addRule value) rest
      else .misuse
    | .long option none =>
      if option = "help" then .help
      else if option = "config" then
        match rest with
        | value :: rest =>
          if isValue value then
            match g.setFile? value with
            | some g => readCommand outer name g rest
            | none => .misuse
          else .misuse
        | [] => .misuse
      else if option = "rule" && name.takesFiles then
        match rest with
        | value :: rest =>
          if isValue value then
            readCommand outer name (g.addRule value) rest
          else .misuse
        | [] => .misuse
      else
        match (name.word? option).bind g.addFlag? with
        | some g => readCommand outer name g rest
        | none => .misuse
    | .letters cs =>
      match readLetters name g cs with
      | .given g => readCommand outer name g rest
      | .wantsRule g =>
        match rest with
        | value :: rest =>
          if isValue value then
            readCommand outer name (g.addRule value) rest
          else .misuse
        | [] => .misuse
      | .help => .help
      | .misuse => .misuse

/-- What asking for help about words comes to. -/
def readHelp : List String → Request
  | [] => .help
  | [s] =>
    if (CommandName.ofString? s).isSome || s = "help" then .help else .misuse
  | _ => .misuse

/-- Reads the words before a command, and all that follows. -/
def readWords (settingsFile : Option String) : List String → Request
  | [] => .misuse
  | word :: rest =>
    match Word.ofString word with
    | .stop => .misuse
    | .plain s =>
      match CommandName.ofString? s with
      | some name => readCommand settingsFile name .nothing rest
      | none => if s = "help" then readHelp rest else .misuse
    | .letters ('h' :: _) => .help
    | .letters ('V' :: _) => .version
    | .letters _ => .misuse
    | .long option value =>
      if option = "config" then
        if settingsFile.isSome then .misuse
        else
          match value, rest with
          | some value, rest =>
            if value.isEmpty then .misuse else readWords (some value) rest
          | none, value :: rest =>
            if isValue value && !value.isEmpty then
              readWords (some value) rest
            else .misuse
          | none, [] => .misuse
      else if value.isSome then .misuse
      else if option = "help" then .help
      else if option = "version" then .version
      else .misuse

/-- Reads a command line. -/
def Request.ofArguments (arguments : List String) : Request :=
  readWords none arguments

end ComponentMarkdown.Cli
