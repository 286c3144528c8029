/-
Groups: parts of a regular expression between parentheses. A group may have
a name or flags of its own. Flags alone between parentheses make no group;
they are meant for the rest of the group around them.
-/
import ComponentMarkdown.Regex.Mode
import ComponentMarkdown.Text.Alphanumeric

namespace ComponentMarkdown.Regex

/-- How something between parentheses starts. -/
inductive GroupStart where
  | group (flags : Text) (name? : Option Text)
  | flags (flags : Text)
  deriving DecidableEq, Repr

namespace GroupStart

/-- Whether a text can name a group. -/
def isName : Text → Bool
  | [] => false
  | c :: rest =>
    (c == '_' || isAlphabetic c)
      && rest.all fun d =>
        d == '_' || d == '.' || d == '[' || d == ']' || isAlphanumeric d

/-- The start of a named group, read behind the angle bracket, and what
follows. -/
def ofName? (s : Text) : Option (GroupStart × Text) :=
  let name := s.takeWhile (· != '>')
  match s.dropWhile (· != '>') with
  | [] => none
  | _ :: rest =>
    if isName name then some (.group [] (some name), rest) else none

/-- The start of a group with flags, or flags alone, read behind the question
mark, and what follows. -/
def ofFlags? (s : Text) : Option (GroupStart × Text) :=
  let flags := s.takeWhile fun c => c != ':' && c != ')'
  if areFlags flags then
    match s.dropWhile fun c => c != ':' && c != ')' with
    | [] => none
    | ':' :: rest => some (.group flags none, rest)
    | _ :: rest => if flags.isEmpty then none else some (.flags flags, rest)
  else none

/-- The start of what stands between parentheses, read behind the opening
one, and what follows. -/
def ofText? : Text → Option (GroupStart × Text)
  | '?' :: 'P' :: '<' :: rest => ofName? rest
  | '?' :: '<' :: rest => ofName? rest
  | '?' :: rest => ofFlags? rest
  | s => some (.group [] none, s)

end GroupStart

end ComponentMarkdown.Regex
