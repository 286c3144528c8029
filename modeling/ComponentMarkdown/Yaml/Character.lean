/-
The characters of YAML text, and how blanks and line breaks between words
fold.

All line breaks but two count as a line feed, so a text is first written
with line feeds only. The line and paragraph separators break lines too but
are kept as they are.
-/
import ComponentMarkdown.Text.Basic

namespace ComponentMarkdown.Yaml

-- ============================================================ classes

/-- A character that a YAML text may hold at all: no control characters
but tab and line breaks. -/
def isAllowed (c : Char) : Bool :=
  let n := c.toNat
  n == 9 || n == 10 || n == 13 || (0x20 ≤ n && n ≤ 0x7e) || n == 0x85
    || (0xa0 ≤ n && n ≤ 0xfffd) || 0x10000 ≤ n

/-- The mark that may start a text and means nothing. -/
def byteOrderMark : Char := '\ufeff'

/-- A line break, once breaks are unified. -/
def isBreak (c : Char) : Bool := c == '\n' || c == '\u2028' || c == '\u2029'

/-- A space or a tab. -/
def isSpacing (c : Char) : Bool := c == ' ' || c == '\t'

/-- A character between words. -/
def isGap (c : Char) : Bool := isSpacing c || isBreak c

/-- A character of names: anchors, tag handles and directives. -/
def isNameChar (c : Char) : Bool := c.isAlphanum || c == '_' || c == '-'

/-- Whether a text is at an end: of the text, or of a word. -/
def atGap : Text → Bool
  | [] => true
  | c :: _ => isGap c

/-- What follows a line that holds nothing more but spacing and perhaps a
comment. -/
def afterComment? (s : Text) : Option Text :=
  let s := s.dropWhile isSpacing
  let s := if s.head? == some '#' then s.dropWhile (!isBreak ·) else s
  match s with
  | [] => some []
  | c :: rest => if isBreak c then some rest else none

/-- Every break but the line and paragraph separators as a line feed. -/
def unifyBreaks : Text → Text
  | '\r' :: '\n' :: rest => '\n' :: unifyBreaks rest
  | '\r' :: rest => '\n' :: unifyBreaks rest
  | '\x85' :: rest => '\n' :: unifyBreaks rest
  | c :: rest => c :: unifyBreaks rest
  | [] => []

-- ========================================================== positions

/-- A line and a column, both counted from zero. -/
structure Position where
  line : Nat
  column : Nat
  deriving DecidableEq, Repr

/-- The position behind one more character. -/
def Position.next (p : Position) (c : Char) : Position :=
  if isBreak c then ⟨p.line + 1, 0⟩ else ⟨p.line, p.column + 1⟩

/-- The position behind some more characters. -/
def Position.over (p : Position) (t : Text) : Position :=
  t.foldl Position.next p

-- ============================================================ folding

/-- The column behind a gap that holds a break. -/
def columnAfter (gap : Text) : Nat :=
  (gap.reverse.takeWhile (!isBreak ·)).length

/-- Whether a gap ends with a break, so that a line starts behind it. -/
def endsLine (gap : Text) : Bool :=
  match gap.getLast? with
  | some c => isBreak c
  | none => false

/-- What a gap between words stands for. Spacing alone stays; one line
feed becomes a space, and of more than one break the first line feed goes;
spacing beside breaks goes. -/
def foldGap (gap : Text) : Text :=
  match gap.filter isBreak with
  | [] => gap
  | ['\n'] => [' ']
  | '\n' :: more => more
  | breaks => breaks

/-- Whether a line starts with the given mark of a document, alone. -/
def startsDocumentMark (mark : Text) (line : Text) : Bool :=
  mark.isPrefixOf line && atGap (line.drop mark.length)

/-- The mark that starts a document. -/
def documentStartMark : Text := ['-', '-', '-']

/-- The mark that ends a document. -/
def documentEndMark : Text := ['.', '.', '.']

/-- Whether a line is a mark of a document. -/
def isDocumentMark (line : Text) : Bool :=
  startsDocumentMark documentStartMark line
    || startsDocumentMark documentEndMark line

end ComponentMarkdown.Yaml
