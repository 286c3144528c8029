/-
JSON strings. Quotes, backslashes and control characters are escaped, the
five controls with a letter of their own by that letter and the others by
four small hexadecimal digits; every other character stands for itself.
-/
import ComponentMarkdown.Text.Hexadecimal

namespace ComponentMarkdown.Json

/-- A character as it stands in a JSON string. -/
def escape (c : Char) : List Char :=
  if c = '"' then ['\\', '"']
  else if c = '\\' then ['\\', '\\']
  else if c = '\x08' then ['\\', 'b']
  else if c = '\x0c' then ['\\', 'f']
  else if c = '\n' then ['\\', 'n']
  else if c = '\r' then ['\\', 'r']
  else if c = '\t' then ['\\', 't']
  else if c.toNat < 32 then
    ['\\', 'u', '0', '0', hexDigit (c.toNat / 16), hexDigit (c.toNat % 16)]
  else [c]

/-- A text as a JSON string, quotes included. -/
def quoted (s : String) : String :=
  String.ofList ('"' :: s.toList.flatMap escape ++ ['"'])

/-- Strings as a JSON array, each on a line of its own, indented by two
spaces. -/
def prettyStrings : List String → String
  | [] => "[]"
  | items =>
    "[\n" ++ String.intercalate ",\n" (items.map fun s => "  " ++ quoted s)
      ++ "\n]"

end ComponentMarkdown.Json
