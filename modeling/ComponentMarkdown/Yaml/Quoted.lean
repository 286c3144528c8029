/-
Quoted scalars. In single quotes only the quote itself is escaped, by
doubling it; in double quotes a backslash starts an escape, and before a
line break it joins the lines. Gaps that hold breaks fold.

Every reader gives the text of the scalar and what follows it, or nothing
for a text that is no scalar.
-/
import ComponentMarkdown.Text.Hexadecimal
import ComponentMarkdown.Yaml.Character

namespace ComponentMarkdown.Yaml

/-- What a letter behind a backslash stands for. -/
def letterEscape? : Char → Option Char
  | '0' => some '\x00'
  | 'a' => some '\x07'
  | 'b' => some '\x08'
  | 't' => some '\t'
  | '\t' => some '\t'
  | 'n' => some '\n'
  | 'v' => some '\x0b'
  | 'f' => some '\x0c'
  | 'r' => some '\r'
  | 'e' => some '\x1b'
  | ' ' => some ' '
  | '"' => some '"'
  | '/' => some '/'
  | '\\' => some '\\'
  | 'N' => some '\x85'
  | '_' => some '\xa0'
  | 'L' => some '\u2028'
  | 'P' => some '\u2029'
  | _ => none

/-- How many hexadecimal digits a letter behind a backslash calls for. -/
def escapeDigits? : Char → Option Nat
  | 'x' => some 2
  | 'u' => some 4
  | 'U' => some 8
  | _ => none

/-- The character that an escape stands for, read behind the backslash, and
how many characters the escape takes there. -/
def escape? : Text → Option (Char × Nat)
  | [] => none
  | c :: rest =>
    match escapeDigits? c with
    | none => (letterEscape? c).map fun d => (d, 1)
    | some n =>
      if rest.length < n then none
      else ((hexNumber? (rest.take n)).bind charOf?).map fun d => (d, n + 1)

/-- Reads a quoted scalar behind its opening quote. At the start of a line
no document mark may stand. -/
def quotedFrom (quote : Char) (lineStart : Bool) (s : Text) :
    Option (Text × Text) :=
  if lineStart && isDocumentMark s then none
  else
    match s with
    | [] => none
    | c :: rest =>
      if isGap c then
        let gap := c :: rest.takeWhile isGap
        (quotedFrom quote (endsLine gap) (rest.dropWhile isGap)).map
          fun r => (foldGap gap ++ r.1, r.2)
      else if c = quote then
        match quote, rest with
        | '\'', '\'' :: rest =>
          (quotedFrom quote false rest).map fun r => ('\'' :: r.1, r.2)
        | _, rest => some ([], rest)
      else if quote = '"' ∧ c = '\\' then
        match rest with
        | [] => none
        | d :: after =>
          if isBreak d then
            let gap := d :: after.takeWhile isGap
            (quotedFrom quote (endsLine gap) (after.dropWhile isGap)).map
              fun r => (gap.tail.filter isBreak ++ r.1, r.2)
          else
            match escape? (d :: after) with
            | none => none
            | some (e, n) =>
              (quotedFrom quote false (after.drop (n - 1))).map
                fun r => (e :: r.1, r.2)
      else (quotedFrom quote false rest).map fun r => (c :: r.1, r.2)
termination_by s.length
decreasing_by
  · have h := dropWhile_length_le isGap rest
    rw [List.length_cons]
    omega
  · simp only [List.length_cons]
    omega
  · have h := dropWhile_length_le isGap after
    simp only [List.length_cons]
    omega
  · simp only [List.length_cons, List.length_drop]
    omega
  · rw [List.length_cons]
    omega

end ComponentMarkdown.Yaml
