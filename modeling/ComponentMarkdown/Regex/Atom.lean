/-
Atoms: the parts of a regular expression that stand for one character, for
one of a set, or for a place between two characters. A character stands for
itself or is written with a backslash in front.

An automaton reads the expressions, and it reads whole characters. So no
expression may ask for single bytes beyond ASCII, and places between words
can be told only where words are of ASCII.
-/
import ComponentMarkdown.Regex.Mode
import ComponentMarkdown.Text.Hexadecimal

namespace ComponentMarkdown.Regex

/-- What an atom stands for. -/
inductive Atom where
  | literal (c : Char)
  | set
  | place
  deriving DecidableEq, Repr

/-- The character that a letter behind a backslash stands for. -/
def control? : Char → Option Char
  | 'a' => some '\x07'
  | 'f' => some '\x0c'
  | 't' => some '\t'
  | 'n' => some '\n'
  | 'r' => some '\r'
  | 'v' => some '\x0b'
  | _ => none

/-- The letters that name a general category, in capitals. -/
def categoryLetters : Text := "CLMNPSZ".toList

namespace Mode

/-- So many signs, and what follows. -/
def signs? (m : Mode) : Nat → Text → Option (Text × Text)
  | 0, s => some ([], s)
  | n + 1, s =>
    match m.skip s with
    | [] => none
    | c :: rest => (m.signs? n rest).map fun (more, rest) => (c :: more, rest)

/-- The character that so many hexadecimal digits write, and what follows. -/
def hexEscape? (m : Mode) (size : Nat) (s : Text) : Option (Atom × Text) :=
  (m.signs? size s).bind fun (digits, rest) =>
    ((hexNumber? digits).bind charOf?).map fun c => (.literal c, rest)

/-- The byte that two hexadecimal digits write, and what follows. -/
def byteEscape? (m : Mode) (s : Text) : Option (Atom × Text) :=
  (m.hexEscape? 2 s).filter fun
    | (.literal c, _) => m.unicode || c.toNat < 128
    | _ => true

/-- The set of a general category, and what follows. -/
def category? (m : Mode) (s : Text) : Option (Atom × Text) :=
  match m.skip s with
  | [] => none
  | c :: rest =>
    if m.unicode && categoryLetters.contains c.toUpper then
      some (.set, rest)
    else none

/-- What a single character behind a backslash stands for. -/
def escapedSign? (m : Mode) (c : Char) : Option Atom :=
  if "dsw".toList.contains c then some .set
  else if "DSW".toList.contains c then if m.unicode then some .set else none
  else if "bB<>".toList.contains c then
    if m.unicode then none else some .place
  else if c = 'A' || c = 'z' then some .place
  else
    match control? c with
    | some d => some (.literal d)
    | none =>
      if c.toNat < 128 && !c.isAlphanum then some (.literal c) else none

/-- What a backslash and the characters behind it stand for, and what
follows. -/
def escape? (m : Mode) : Text → Option (Atom × Text)
  | [] => none
  | c :: rest =>
    if c = 'x' then m.byteEscape? rest
    else if c = 'u' then m.hexEscape? 4 rest
    else if c = 'U' then m.hexEscape? 8 rest
    else if c = 'p' || c = 'P' then m.category? rest
    else (m.escapedSign? c).map fun a => (a, rest)

end Mode

end ComponentMarkdown.Regex
