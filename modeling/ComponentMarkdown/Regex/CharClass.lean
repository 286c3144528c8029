/-
Character classes: members between brackets, single ones, ranges, named
sets, and classes in turn. Between members there may be an operator on sets,
which takes all that stands before it in its class and all that stands
behind it up to the next.
-/
import ComponentMarkdown.Regex.Atom
import ComponentMarkdown.Regex.Parts

namespace ComponentMarkdown.Regex

-- ============================================================ members

/-- The names of the sets of ASCII that a class may hold. -/
def asciiSets : List Text :=
  ["alnum", "alpha", "ascii", "blank", "cntrl", "digit", "graph", "lower",
    "print", "punct", "space", "upper", "word", "xdigit"].map String.toList

/-- A named set of ASCII, read behind its bracket: whether all but the set is
meant, and what follows. -/
def asciiSet? : Text → Option (Bool × Text)
  | ':' :: s =>
    let negated := s.head? == some '^'
    let s := if negated then s.tail else s
    let name := s.takeWhile (· != ':')
    match s.dropWhile (· != ':') with
    | ':' :: ']' :: rest =>
      if asciiSets.contains name then some (negated, rest) else none
    | _ => none
  | _ => none

namespace Mode

/-- One member of a class, and what follows. -/
def member? (m : Mode) (s : Text) : Option (Atom × Text) :=
  let found : Option (Atom × Text) :=
    match s with
    | [] => none
    | '\\' :: rest => m.escape? rest
    | c :: rest => some (.literal c, rest)
  found.filter fun
    | (.literal c, _) => m.unicode || c.toNat < 128
    | (.set, _) => true
    | (.place, _) => true

/-- Whether a hyphen with the given text behind it makes a range. -/
def isRange (m : Mode) (s : Text) : Bool :=
  m.ahead? s != some ']' && m.ahead? s != some '-'

/-- What follows a range, whose first member and hyphen were read. -/
def rangeEnd? (m : Mode) (first : Atom) (s : Text) : Option Text :=
  (m.member? (m.skip s)).bind fun (last, rest) =>
    match first, last with
    | .literal a, .literal b => if a ≤ b then some rest else none
    | _, _ => none

/-- What follows a member of a class, or a range of them. -/
def members? (m : Mode) (s : Text) : Option Text :=
  (m.member? s).bind fun (first, rest) =>
    let rest := m.skip rest
    if rest.head? == some '-' && m.isRange rest.tail then
      m.rangeEnd? first rest.tail
    else if first = .place then none
    else some rest

end Mode

-- ============================================================ reading

/-- A class that is being read: its members behind its last operator, and
the height of what stands before that operator. -/
structure OpenClass where
  members : Parts
  left? : Option Nat
  /-- Nothing but hyphens was read. -/
  atStart : Bool
  deriving DecidableEq, Repr

namespace OpenClass

/-- A class of which nothing was read. -/
def start : OpenClass := ⟨.none, none, true⟩

/-- A class and one more member of a height. -/
def add (c : OpenClass) (height : Nat) : OpenClass :=
  { c with members := c.members.add height, atStart := false }

/-- The height of all members and operators. -/
def inside (c : OpenClass) : Nat :=
  match c.left? with
  | none => c.members.whole
  | some left => max left c.members.whole + 1

/-- A class with an operator behind all that was read. -/
def operator (c : OpenClass) : OpenClass := ⟨.none, some c.inside, false⟩

/-- The height of the class. -/
def height (c : OpenClass) : Nat := c.inside + 1

end OpenClass

/-- Whether two characters in a row are an operator on sets. -/
def isOperator (c d : Char) : Bool :=
  c == d && (c == '&' || c == '-' || c == '~')

namespace Mode

/-- What follows the bracket that opens a class, and the sign that negates
it. All but some bytes are bytes beyond ASCII. -/
def classStart? (m : Mode) (s : Text) : Option Text :=
  match m.skip s with
  | '^' :: rest => if m.unicode then some rest else none
  | rest => some rest

/-- The height of a class and what follows it, read inside it; the classes
around it are given, the innermost first. The first argument bounds how many
members and brackets are read. -/
def classRest? (m : Mode) :
    Nat → OpenClass → List OpenClass → Text → Option (Nat × Text)
  | 0, _, _, _ => none
  | n + 1, c, outer, s =>
    match m.skip s with
    | [] => none
    | sign :: rest =>
      if c.atStart && sign == '-' then
        m.classRest? n { c.add 0 with atStart := true } outer rest
      else if c.atStart && c.members.count == 0 && sign == ']' then
        m.classRest? n (c.add 0) outer rest
      else if sign = ']' then
        match outer with
        | [] => some (c.height, rest)
        | around :: outer => m.classRest? n (around.add c.height) outer rest
      else if sign = '[' then
        match asciiSet? rest with
        | some (negated, rest) =>
          if negated && !m.unicode then none
          else m.classRest? n (c.add 0) outer rest
        | none =>
          (m.classStart? rest).bind (m.classRest? n .start (c :: outer))
      else if rest.head?.any (isOperator sign) then
        m.classRest? n c.operator outer rest.tail
      else
        (m.members? (sign :: rest)).bind (m.classRest? n (c.add 0) outer)

/-- The height of a class and what follows it, read behind its opening
bracket. -/
def class? (m : Mode) (s : Text) : Option (Nat × Text) :=
  (m.classStart? s).bind fun rest =>
    m.classRest? rest.length .start [] rest

end Mode

end ComponentMarkdown.Regex
