/-
Log directives: `target[span{field=value}]=level`, where each part may be
missing. A directive without a span and without a value is about entries:
those whose target starts with its own and that have its field. Any other
is about spans, and since no part of the program opens one, it shows
nothing.

Where the parts of a directive end is seen without the blanks around it.
They are cut out of the directive as it was given, though, by as many bytes;
so a directive with a blank in front loses its target or its level.
-/
import ComponentMarkdown.Cli.FieldValue
import ComponentMarkdown.Log

namespace ComponentMarkdown.Cli

-- ============================================================= levels

namespace LogDetail

/-- The detail that shows everything. -/
def everything : Nat := 5

/-- The value of decimal digits. -/
def digitsValue (digits : Text) : Nat :=
  digits.foldl (fun n c => 10 * n + (c.toNat - '0'.toNat)) 0

/-- The number that a text writes, with a plus sign or without. -/
def number? (s : Text) : Option Nat :=
  let digits :=
    match s with
    | '+' :: rest => rest
    | s => s
  if !digits.isEmpty && digits.all Char.isDigit then some (digitsValue digits)
  else none

/-- The detail of a level, given by its number or by its word in capitals or
small letters. -/
def ofText? (s : Text) : Option Nat :=
  match number? s with
  | some n => if n ≤ everything then some n else none
  | none =>
    (["off", "error", "warn", "info", "debug", "trace"].map String.toList)
      |>.idxOf? s.asciiLower

end LogDetail

-- ========================================================= directives

/-- What a directive asks of a field: to be there, or to have a value. -/
structure FieldTest where
  name : Text
  value : Option Text
  deriving DecidableEq, Repr

/-- Shows what it is about up to a detail; zero shows nothing. -/
structure LogDirective where
  target : Option Text
  span : Option Text
  field : Option FieldTest
  detail : Nat
  deriving DecidableEq, Repr

namespace LogDirective

/-- Shows everything whose target starts with the given one. -/
def ofTarget (target : Text) : LogDirective :=
  ⟨some target, none, none, LogDetail.everything⟩

/-- Shows all up to a detail. -/
def ofDetail (detail : Nat) : LogDirective := ⟨none, none, none, detail⟩

/-- Whether a directive is about spans. -/
def concernsSpans (d : LogDirective) : Bool :=
  d.span.isSome || d.field.any (·.value.isSome)

/-- Whether two directives are about the same. -/
def sameSubject (a b : LogDirective) : Bool :=
  a.target == b.target && a.field == b.field

/-- Whether a directive without a span is about an entry. Every entry has a
field for its message. -/
def concerns (d : LogDirective) (e : Log.Entry) : Bool :=
  (d.target.all fun t => t.isPrefixOf e.target.toList) &&
    d.field.all fun f =>
      ("message" :: e.fields.map Prod.fst).any (·.toList == f.name)

/-- Whether one directive about an entry goes before another: a longer target
goes first, then a field, then the field whose name is later in order. -/
def outranks (a b : LogDirective) : Bool :=
  let size (d : LogDirective) : Nat := (d.target.map (·.length + 1)).getD 0
  let name (d : LogDirective) : Option Text := d.field.map (·.name)
  if size a = size b then
    match name a, name b with
    | some m, some n => decide (String.ofList n < String.ofList m)
    | some _, none => true
    | none, _ => false
  else size b < size a

end LogDirective

-- ============================================================= reading

/-- What is left of a directive: without the blanks around it, where its
parts are told apart, and as it was given, where they are cut out. -/
structure DirectiveText where
  trimmed : Text
  given : Text

namespace DirectiveText

/-- A whole directive. -/
def ofText (s : Text) : DirectiveText := ⟨s.trim, s⟩

/-- The next part, as long as its characters belong to it, and what
follows. -/
def part (d : DirectiveText) (belongs : Char → Bool) :
    Text × DirectiveText :=
  let size := Text.byteLength (d.trimmed.takeWhile belongs)
  (d.given.takeBytes size,
    ⟨d.trimmed.dropWhile belongs, d.given.dropBytes size⟩)

/-- What follows a sign of one byte. -/
def tail (d : DirectiveText) : DirectiveText :=
  ⟨d.trimmed.tail, d.given.dropBytes 1⟩

end DirectiveText

namespace LogDirective

/-- Whether a directive may start with a character, unless it starts with a
bracket. -/
def mayStart (c : Char) : Bool :=
  isAlphanumeric c || c == '-' || c == ':' || c == '_'

/-- Reads what is asked of a field. What follows a second equals sign
counts for nothing. -/
def fieldTest? (s : Text) : Option FieldTest :=
  let name := s.takeWhile (· != '=')
  match s.dropWhile (· != '=') with
  | [] => if name.isEmpty then none else some ⟨name, none⟩
  | _ :: rest =>
    let value := rest.takeWhile (· != '=')
    if FieldValue.isValue value then some ⟨name, some value⟩ else none

/-- Reads the level behind an equals sign; none at all shows everything. -/
def withLevel? (d : LogDirective) (level : Text) : Option LogDirective :=
  if level.isEmpty then some d
  else (LogDetail.ofText? level).map fun n => { d with detail := n }

/-- Reads what follows the closing bracket. -/
def afterBracket? (d : LogDirective) (s : DirectiveText) :
    Option LogDirective :=
  match s.trimmed with
  | [] => some d
  | '=' :: _ => d.withLevel? s.tail.given
  | _ => none

/-- Reads what follows the opening bracket. -/
def afterOpening? (target : Option Text) (s : DirectiveText) :
    Option LogDirective :=
  let (span, s) := s.part fun c => c != ']' && c != '\x7b'
  match s.trimmed with
  | ']' :: _ =>
    afterBracket? ⟨target, some span, none, LogDetail.everything⟩ s.tail
  | '\x7b' :: _ =>
    let (field, s) := s.tail.part (· != '\x7d')
    match s.trimmed with
    | '\x7d' :: ']' :: _ =>
      (fieldTest? field).bind fun f =>
        let span := if span.isEmpty then none else some span
        afterBracket? ⟨target, span, some f, LogDetail.everything⟩ s.tail.tail
    | _ => none
  | _ => none

/-- Reads a directive. A word alone is a level, if it can be one, and a
target otherwise. -/
def ofText? (text : Text) : Option LogDirective :=
  let s := DirectiveText.ofText text
  match s.trimmed with
  | [] => none
  | '[' :: _ => afterOpening? none s.tail
  | c :: _ =>
    if !mayStart c then none
    else
      let (target, s) := s.part fun c => c != '=' && c != '['
      match s.trimmed with
      | [] => some ((LogDetail.ofText? text).elim (ofTarget text) ofDetail)
      | '=' :: _ => (ofTarget target).withLevel? s.tail.given
      | _ => afterOpening? (some target) s.tail

end LogDirective

end ComponentMarkdown.Cli
