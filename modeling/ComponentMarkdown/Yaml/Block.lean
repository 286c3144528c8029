/-
Block scalars: indented lines behind a header. A literal scalar keeps its
line breaks; a folded one folds the break between two lines that are not
indented further. What becomes of the breaks at the end is for the header
to say.
-/
import ComponentMarkdown.Yaml.Character

namespace ComponentMarkdown.Yaml

-- ============================================================= header

/-- What becomes of the line breaks at the end of a block scalar. -/
inductive Chomping where
  /-- None stays. -/
  | strip
  /-- The first stays. -/
  | clip
  /-- All stay. -/
  | keep
  deriving DecidableEq, Repr

/-- The chomping that a character asks for. -/
def Chomping.ofChar? : Char → Option Chomping
  | '-' => some .strip
  | '+' => some .keep
  | _ => none

/-- The indentation that a digit asks for; none at all cannot be asked
for. -/
def indentation? (c : Char) : Option Nat :=
  if c.isDigit && c != '0' then some (c.toNat - 48) else none

/-- The header behind its indicator: chomping, the indentation asked for
(zero for none), and the text behind. -/
def blockHeader? (s : Text) : Option (Chomping × Nat × Text) :=
  match s with
  | [] => some (.clip, 0, [])
  | c :: rest =>
    match Chomping.ofChar? c with
    | some chomping =>
      match rest with
      | d :: after =>
        if d.isDigit then
          (indentation? d).map fun n => (chomping, n, after)
        else some (chomping, 0, rest)
      | [] => some (chomping, 0, [])
    | none =>
      if c.isDigit then
        (indentation? c).map fun n =>
          match rest with
          | d :: after =>
            match Chomping.ofChar? d with
            | some chomping => (chomping, n, after)
            | none => (.clip, n, rest)
          | [] => (.clip, n, [])
      else some (.clip, 0, s)

-- ============================================================== lines

/-- A line and the break that ends it, which the last line may lack. -/
structure Line where
  body : Text
  ending : Text
  deriving DecidableEq, Repr

namespace Line

/-- The lines of a text. -/
def ofText : Text → List Line
  | [] => []
  | c :: rest =>
    if isBreak c then ⟨[], [c]⟩ :: ofText rest
    else
      match ofText rest with
      | [] => [⟨[c], []⟩]
      | line :: more => ⟨c :: line.body, line.ending⟩ :: more

/-- The text of lines. -/
def join (lines : List Line) : Text :=
  lines.flatMap fun l => l.body ++ l.ending

/-- How many spaces a line starts with. -/
def spaces (l : Line) : Nat := (l.body.takeWhile (· == ' ')).length

end Line

/-- The widest indentation among the blank lines at the front and the first
line that is not blank, if no tab stands there. -/
def widestIndent : List Line → Option Nat
  | [] => some 0
  | l :: more =>
    match l.body.drop l.spaces with
    | '\t' :: _ => none
    | _ :: _ => some l.spaces
    | [] =>
      if l.ending.isEmpty then some l.spaces
      else (widestIndent more).map (max l.spaces)

/-- Lines of a block scalar as they are read: the text so far without the
break that ends it, that break, and the breaks of blank lines behind it. -/
structure BlockParts where
  text : Text
  ending : Text
  blank : Text
  rest : Text

/-- What stands between two lines of a block scalar. -/
def blockJoint (folded afterSpace beforeSpace : Bool) (ending blank : Text) :
    Text :=
  if folded && ending == ['\n'] && !afterSpace && !beforeSpace then
    if blank.isEmpty then [' '] else blank
  else ending ++ blank

/-- Reads the lines of a block scalar of a known indentation, given the
breaks before them and whether the line before starts with a space. -/
def blockLines (folded : Bool) (indent : Nat) (ending blank : Text)
    (afterSpace : Bool) : List Line → Option BlockParts
  | [] => some ⟨[], ending, blank, []⟩
  | l :: more =>
    let k := min indent l.spaces
    match l.body.drop k with
    | [] =>
      if l.ending.isEmpty then some ⟨[], ending, blank, []⟩
      else blockLines folded indent ending (blank ++ l.ending) afterSpace more
    | c :: body =>
      if k < indent then
        if c = '\t' then none
        else some ⟨[], ending, blank, c :: body ++ l.ending ++ Line.join more⟩
      else
        let joint := blockJoint folded afterSpace (isSpacing c) ending blank
        (blockLines folded indent l.ending [] (isSpacing c) more).map
          fun parts => { parts with
            text := joint ++ c :: body ++ parts.text }

/-- A block scalar behind its indicator, inside a block whose entries may
not be indented less than `least`: its text and what follows. -/
def block? (folded : Bool) (least : Nat) (s : Text) : Option (Text × Text) :=
  (blockHeader? s).bind fun (chomping, asked, s) =>
    (afterComment? s).bind fun s =>
      let lines := Line.ofText s
      let indent? :=
        if asked = 0 then (widestIndent lines).map fun w => max w (max least 1)
        else some (least - 1 + asked)
      indent?.bind fun indent =>
        (blockLines folded indent [] [] false lines).map fun parts =>
          let tail :=
            match chomping with
            | .strip => []
            | .clip => parts.ending
            | .keep => parts.ending ++ parts.blank
          (parts.text ++ tail, parts.rest)

end ComponentMarkdown.Yaml
