/-
Glob patterns. `?` stands for one character, `*` for any number of them,
`[…]` for one character of a class and `[!…]` for one outside it, and `**`
for whole path components: it must be a component of its own. Slashes and
leading dots are characters like any others, and case matters.

A pattern is read into a list of tokens; a text matches if it can be cut
into parts that match the tokens in turn.
-/
import ComponentMarkdown.Text.Basic

namespace ComponentMarkdown.Glob

-- ============================================================= tokens

/-- A part of a character class: every character from the first to the
last. -/
structure ClassRange where
  first : Char
  last : Char
  deriving DecidableEq, Repr

/-- One element of a pattern. -/
inductive Token where
  | char (c : Char)
  | anyChar
  | within (ranges : List ClassRange)
  | except (ranges : List ClassRange)
  /-- Any characters. -/
  | anyText
  /-- Any number of whole path components, each with its slash. -/
  | anyComponents
  deriving DecidableEq, Repr

/-- A pattern that has been read. -/
structure Pattern where
  tokens : List Token
  deriving DecidableEq, Repr

-- ============================================================= errors

/-- Why a text is no pattern. -/
inductive PatternFlaw where
  /-- More than two stars in a row. -/
  | wildcards
  /-- Two stars that are no path component of their own. -/
  | recursiveWildcards
  /-- A bracket that starts no character class. -/
  | range
  deriving DecidableEq, Repr

/-- A flaw and the number of characters before it. -/
structure PatternFault where
  position : Nat
  flaw : PatternFlaw
  deriving DecidableEq, Repr

/-- The wording of a flaw. -/
def PatternFlaw.message : PatternFlaw → String
  | .wildcards =>
    "wildcards are either regular \x60*\x60 or recursive \x60**\x60"
  | .recursiveWildcards =>
    "recursive wildcards must form a single path component"
  | .range => "invalid range pattern"

/-- The report about a pattern fault. -/
def PatternFault.message (f : PatternFault) : String :=
  "Pattern syntax error near position " ++ toString f.position ++ ": "
    ++ f.flaw.message

-- ============================================================ reading

/-- The ranges of a character class; a hyphen between two characters
makes a range of them. -/
def classRanges : Text → List ClassRange
  | first :: '-' :: last :: rest => ⟨first, last⟩ :: classRanges rest
  | c :: rest => ⟨c, c⟩ :: classRanges rest
  | [] => []

/-- A character class behind its opening bracket: the token and how many
characters it takes, the closing bracket included. The first character of
a class belongs to it even if it is a bracket. -/
def readClass? : Text → Option (Token × Nat)
  | '!' :: first :: rest =>
    if rest.contains ']' then
      let inside := first :: rest.takeWhile (· != ']')
      some (.except (classRanges inside), inside.length + 2)
    else none
  | first :: rest =>
    if first != '!' && rest.contains ']' then
      let inside := first :: rest.takeWhile (· != ']')
      some (.within (classRanges inside), inside.length + 1)
    else none
  | [] => none

/-- Reads the rest of a pattern, given the character before it and its
position. -/
def readFrom (position : Nat) (before : Option Char) (s : Text) :
    Except PatternFault (List Token) :=
  match s with
  | [] => .ok []
  | '?' :: rest =>
    (readFrom (position + 1) (some '?') rest).map (.anyChar :: ·)
  | '*' :: '*' :: '*' :: _ => .error ⟨position + 2, .wildcards⟩
  | '*' :: '*' :: rest =>
    if before.isNone || before == some '/' then
      match rest with
      | [] => .ok [.anyComponents]
      | c :: rest =>
        if c = '/' then
          (readFrom (position + 3) (some '/') rest).map (.anyComponents :: ·)
        else .error ⟨position + 2, .recursiveWildcards⟩
    else .error ⟨position - 1, .recursiveWildcards⟩
  | '*' :: rest =>
    (readFrom (position + 1) (some '*') rest).map (.anyText :: ·)
  | '[' :: rest =>
    match readClass? rest with
    | some (token, n) =>
      (readFrom (position + 1 + n) (some ']') (rest.drop n)).map (token :: ·)
    | none => .error ⟨position, .range⟩
  | c :: rest =>
    (readFrom (position + 1) (some c) rest).map (.char c :: ·)
termination_by s.length
decreasing_by all_goals simp only [List.length_cons, List.length_drop]; omega

/-- Reads a pattern. -/
def Pattern.ofText? (s : Text) : Except PatternFault Pattern :=
  (readFrom 0 none s).map Pattern.mk

-- =========================================================== matching

/-- Whether a class holds a character. -/
def inRanges (ranges : List ClassRange) (c : Char) : Bool :=
  ranges.any fun r => r.first ≤ c && c ≤ r.last

/-- A text and everything that is left of it when more and more characters
are taken away. -/
def rests : Text → List Text
  | [] => [[]]
  | c :: rest => (c :: rest) :: rests rest

/-- What can follow after some characters of a text that end in a slash, or
after all of them. -/
def restsAfterSlash : Text → List Text
  | [] => [[]]
  | c :: rest =>
    if c = '/' then rest :: restsAfterSlash rest else restsAfterSlash rest

/-- Whether a token takes a single character. -/
def Token.takes : Token → Char → Bool
  | .char d, c => c == d
  | .anyChar, _ => true
  | .within ranges, c => inRanges ranges c
  | .except ranges, c => !inRanges ranges c
  | .anyText, _ => false
  | .anyComponents, _ => false

/-- What is left of a text when a token takes its first character. -/
def Token.restAfter? (t : Token) : Text → Option Text
  | [] => none
  | c :: rest => if t.takes c then some rest else none

/-- What can be left of a text after one more token, out of what can be left
before it; both lists start with the longest. A token for many characters
looks at the longest alone, since it can leave all that it could leave of a
shorter one. -/
def Token.narrow (left : List Text) (t : Token) : List Text :=
  match t, left with
  | .anyText, s :: _ => rests s
  | .anyComponents, s :: _ => s :: restsAfterSlash s
  | t, left => left.filterMap t.restAfter?

/-- Whether tokens match a whole text. -/
def Token.allMatch (ts : List Token) (s : Text) : Bool :=
  (ts.foldl Token.narrow [s]).any List.isEmpty

namespace Pattern

/-- Whether the pattern matches a whole text. -/
def isMatch (p : Pattern) (s : Text) : Bool := Token.allMatch p.tokens s

/-- Whether the pattern is the one for any number of components. -/
def isRecursive (p : Pattern) : Bool := p.tokens.contains .anyComponents

/-- The one text that a pattern without special characters matches. -/
def literal? (p : Pattern) : Option Text :=
  p.tokens.mapM fun
    | .char c => some c
    | _ => none

/-- Whether the pattern starts with a dot of its own. -/
def startsWithDot (p : Pattern) : Bool := p.tokens.head? == some (.char '.')

end Pattern

/-- Whether a text has characters that make it a pattern. -/
def hasMagic (s : Text) : Bool := s.any fun c => c == '*' || c == '?' || c == '['

end ComponentMarkdown.Glob
