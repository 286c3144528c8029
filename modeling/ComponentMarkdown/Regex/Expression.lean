/-
Regular expressions: which texts are one. Pieces follow one another, a
vertical bar parts alternatives, parentheses make groups, and a star, plus
sign or question mark repeats the piece before it. Parts may stand in one
another only so deeply.

An expression stands between braces itself, so none may stand in it to count
repetitions or to name a character or a set.
-/
import ComponentMarkdown.Regex.CharClass
import ComponentMarkdown.Regex.Group

namespace ComponentMarkdown.Regex

/-- How high an expression may be. -/
def maxHeight : Nat := 250

-- ============================================================= levels

/-- A group that is being read, or the whole expression. -/
structure Level where
  mode : Mode
  /-- The alternatives before the last. -/
  alternatives : Parts
  /-- The pieces of the last alternative. -/
  pieces : Parts
  /-- The height of the last piece, if it can be repeated. -/
  last? : Option Nat
  deriving DecidableEq, Repr

namespace Level

/-- A level of which nothing was read. -/
def start (m : Mode) : Level := ⟨m, .none, .none, none⟩

/-- A level and one more piece of a height. -/
def add (l : Level) (height : Nat) : Level :=
  { l with pieces := l.pieces.add height, last? := some height }

/-- A level whose rest is read as flags say. They are a piece that cannot be
repeated. -/
def withFlags (l : Level) (flags : Text) : Level :=
  { l with
    mode := l.mode.withFlags flags
    pieces := l.pieces.add 0
    last? := none }

/-- A level whose last piece is repeated. -/
def repeatLast? (l : Level) : Option Level :=
  l.last?.map fun height =>
    { l with
      pieces := ⟨l.pieces.count, max l.pieces.height (height + 1)⟩
      last? := some (height + 1) }

/-- A level with one more alternative. -/
def alternative (l : Level) : Level :=
  { l with
    alternatives := l.alternatives.add l.pieces.whole
    pieces := .none
    last? := none }

/-- The height of all that was read. -/
def height (l : Level) : Nat := (l.alternatives.add l.pieces.whole).whole

end Level

-- ============================================================ reading

/-- Where the reading of an expression stands: the innermost group, those
around it, and the names that groups have. -/
structure Reading where
  level : Level
  outer : List Level
  names : List Text
  deriving DecidableEq, Repr

namespace Reading

/-- Nothing was read. -/
def start : Reading := ⟨.start .standard, [], []⟩

/-- Takes in a piece of a height. -/
def add (r : Reading) (height : Nat) : Reading :=
  { r with level := r.level.add height }

/-- Takes in the start of a group or of flags. A name is given once. -/
def open? (r : Reading) : GroupStart → Option Reading
  | .flags flags => some { r with level := r.level.withFlags flags }
  | .group flags name? =>
    if name?.any r.names.contains then none
    else
      some {
        level := .start (r.level.mode.withFlags flags)
        outer := r.level :: r.outer
        names := name?.toList ++ r.names }

/-- Takes in the end of a group. -/
def close? (r : Reading) : Option Reading :=
  match r.outer with
  | [] => none
  | around :: outer =>
    some { r with level := around.add (r.level.height + 1), outer := outer }

/-- What follows the question mark of a repetition that takes as little as
possible, if there is one. -/
def afterLazy (s : Text) : Text := if s.head? == some '?' then s.tail else s

/-- Takes in the piece, parenthesis or operator that starts with a sign, and
gives what follows. -/
def step? (r : Reading) (sign : Char) (rest : Text) :
    Option (Reading × Text) :=
  let mode := r.level.mode
  if sign = '(' then
    (GroupStart.ofText? (mode.skip rest)).bind fun (start, rest) =>
      (r.open? start).map fun r => (r, rest)
  else if sign = ')' then r.close?.map fun r => (r, rest)
  else if sign = '|' then
    some ({ r with level := r.level.alternative }, rest)
  else if sign = '*' || sign = '+' || sign = '?' then
    r.level.repeatLast?.map fun l =>
      ({ r with level := l }, afterLazy rest)
  else if sign = '[' then
    (mode.class? rest).map fun (height, rest) => (r.add height, rest)
  else if sign = '\\' then
    (mode.escape? rest).map fun (_, rest) => (r.add 0, rest)
  else if sign = '.' then
    if mode.unicode then some (r.add 0, rest) else none
  else if sign = '\x7b' then none
  else some (r.add 0, rest)

/-- Takes in a whole text. The first argument bounds how many steps that
takes. -/
def run? : Nat → Reading → Text → Option Reading
  | 0, r, s => if (r.level.mode.skip s).isEmpty then some r else none
  | n + 1, r, s =>
    match r.level.mode.skip s with
    | [] => some r
    | sign :: rest => (r.step? sign rest).bind fun (r, rest) => run? n r rest

/-- Whether what was read is whole. -/
def isComplete (r : Reading) : Bool :=
  r.outer.isEmpty && r.level.height ≤ maxHeight

end Reading

/-- Whether a text is a regular expression. -/
def isExpression (s : Text) : Bool :=
  (Reading.start.run? s.length s).any Reading.isComplete

end ComponentMarkdown.Regex
