/-
Field values: what a log directive may ask the value of a field to be, a
number or a match of a regular expression. No entry is shown for the sake of
a value, so none is ever looked at; but a directive is one only if the value
that it asks for can be asked for.
-/
import ComponentMarkdown.Regex.Expression

namespace ComponentMarkdown.Cli.FieldValue

/-- What follows decimal digits, if there are any. -/
def afterDigits? (s : Text) : Option Text :=
  if s.head?.any Char.isDigit then some (s.dropWhile Char.isDigit) else none

/-- Whether a text is nothing or an exponent. -/
def isExponent : Text → Bool
  | [] => true
  | c :: rest =>
    let digits :=
      if rest.head? == some '+' || rest.head? == some '-' then rest.tail
      else rest
    (c == 'e' || c == 'E') && afterDigits? digits == some []

/-- Whether a text is a number without a sign, infinity and the like
included. -/
def isUnsigned (s : Text) : Bool :=
  ["inf", "infinity", "nan"].any (·.toList == s.asciiLower) ||
    match afterDigits? s with
    | some ('.' :: rest) => isExponent (rest.dropWhile Char.isDigit)
    | some rest => isExponent rest
    | none =>
      match s with
      | '.' :: rest => (afterDigits? rest).any isExponent
      | _ => false

/-- Whether a directive may ask for a value. A number is an expression, too,
unless a plus sign stands in front. -/
def isValue (s : Text) : Bool :=
  match s with
  | '+' :: rest => isUnsigned rest
  | s => Regex.isExpression s

end ComponentMarkdown.Cli.FieldValue
