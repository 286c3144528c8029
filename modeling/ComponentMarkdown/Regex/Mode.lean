/-
Modes: how a regular expression is read. Spaced out, it may have blanks and
comments between its signs; bound to Unicode, it speaks of characters, and
otherwise of bytes. Flags change the mode up to the end of a group.
-/
import ComponentMarkdown.Text.Basic

namespace ComponentMarkdown.Regex

-- ============================================================== modes

/-- How an expression is read. -/
structure Mode where
  spaced : Bool
  unicode : Bool
  deriving DecidableEq, Repr

/-- How an expression is read that says nothing about it. -/
def Mode.standard : Mode := ⟨false, true⟩

-- ============================================================== flags

/-- The letters that flags are made of. -/
def flagLetters : Text := "imsUuRx".toList

/-- Whether a text is made of flags: each letter once, one minus sign at
most, and none at the end. -/
def areFlags (flags : Text) : Bool :=
  (flags.all fun c => c == '-' || flagLetters.contains c)
    && flags.eraseDups.length == flags.length && flags.getLast? != some '-'

/-- What flags say about a letter: a minus sign in front turns it off. -/
def flagState? (letter : Char) (flags : Text) : Option Bool :=
  if flags.contains letter then
    some ((flags.takeWhile (· != '-')).contains letter)
  else none

/-- The mode that flags lead to. -/
def Mode.withFlags (m : Mode) (flags : Text) : Mode where
  spaced := (flagState? 'x' flags).getD m.spaced
  unicode := (flagState? 'u' flags).getD m.unicode

-- ============================================================= spacing

/-- What follows blanks and comments, read outside a comment or inside one;
a comment ends with its line. -/
def skipSpacing (inComment : Bool) : Text → Text
  | [] => []
  | c :: rest =>
    if inComment then skipSpacing (c != '\n') rest
    else if isBlank c then skipSpacing false rest
    else if c = '#' then skipSpacing true rest
    else c :: rest

namespace Mode

/-- What follows all that is passed over between two signs. -/
def skip (m : Mode) (s : Text) : Text :=
  if m.spaced then skipSpacing false s else s

/-- The sign that a hyphen in a class is judged by, looked for behind it. A
comment is not seen as one there: its text counts but for the sign that
starts it. -/
def ahead? (m : Mode) (s : Text) : Option Char :=
  if m.spaced then
    let s₁ := s.dropWhile isBlank
    let s₂ := if s₁.head? == some '#' then s₁.tail.dropWhile isBlank else s₁
    s₂.head?.or s.head?
  else s.head?

end Mode

end ComponentMarkdown.Regex
