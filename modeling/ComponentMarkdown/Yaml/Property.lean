/-
Node properties and directives: anchors, aliases, tags, and the lines that
start with a percent sign. Of a tag only the handle matters here, since no
value is read by its tag.
-/
import ComponentMarkdown.Yaml.Plain
import ComponentMarkdown.Yaml.Quoted

namespace ComponentMarkdown.Yaml

-- ============================================================ anchors

/-- The name of an anchor or alias behind its indicator, and what
follows. -/
def anchorName? (s : Text) : Option (Text × Text) :=
  let name := s.takeWhile isNameChar
  let rest := s.dropWhile isNameChar
  let ends :=
    match rest with
    | [] => true
    | c :: _ => isGap c || ['?', ':', ',', ']', '}', '%', '@', '\x60'].contains c
  if !name.isEmpty && ends then some (name, rest) else none

-- =============================================================== tags

/-- A character of a tag. Inside angle brackets some flow indicators belong
to it too. -/
def isTagChar (bracketed : Bool) (c : Char) : Bool :=
  isNameChar c
    || [';', '/', '?', ':', '@', '&', '=', '+', '$', '.', '%', '!', '~', '*',
        '\'', '(', ')'].contains c
    || (bracketed && [',', '[', ']'].contains c)

/-- The byte that a percent escape writes, and what follows. -/
def escapedByte? : Text → Option (Nat × Text)
  | '%' :: a :: b :: rest => (hexNumber? [a, b]).map fun n => (n, rest)
  | _ => none

/-- How many bytes a character takes whose first byte is given. -/
def bytesAfter? (first : Nat) : Option Nat :=
  if first < 0x80 then some 0
  else if 0xc0 ≤ first && first < 0xe0 then some 1
  else if 0xe0 ≤ first && first < 0xf0 then some 2
  else if 0xf0 ≤ first && first < 0xf8 then some 3
  else none

/-- What follows the given number of escaped bytes that continue a
character. -/
def continuation? : Nat → Text → Option Text
  | 0, s => some s
  | n + 1, s =>
    (escapedByte? s).bind fun (byte, rest) =>
      if 0x80 ≤ byte && byte < 0xc0 then continuation? n rest else none

/-- Whether every percent escape of a tag is part of an escaped character;
the first argument bounds how many characters are looked at. -/
def escapesFit : Nat → Text → Bool
  | 0, _ => true
  | _ + 1, [] => true
  | n + 1, '%' :: rest =>
    match (escapedByte? ('%' :: rest)).bind fun (byte, after) =>
        (bytesAfter? byte).bind fun k => continuation? k after with
    | some after => escapesFit n after
    | none => false
  | n + 1, _ :: rest => escapesFit n rest

/-- The characters of a tag at the head of a text, and what follows. -/
def tagText? (bracketed : Bool) (s : Text) : Option (Text × Text) :=
  let t := s.takeWhile (isTagChar bracketed)
  if escapesFit t.length t then some (t, s.dropWhile (isTagChar bracketed))
  else none

/-- A tag at the head of a text: its handle, which is empty for a tag
written out, and what follows. -/
def tag? (flow : Bool) (s : Text) : Option (Text × Text) :=
  let ended := fun (handle rest : Text) =>
    if (flow && rest.head? == some ',') || atGap rest then some (handle, rest)
    else none
  match s with
  | '!' :: '<' :: inside =>
    (tagText? true inside).bind fun (t, rest) =>
      match t, rest with
      | _ :: _, '>' :: rest => ended [] rest
      | _, _ => none
  | '!' :: rest =>
    let name := rest.takeWhile isNameChar
    match rest.dropWhile isNameChar with
    | '!' :: after =>
      (tagText? false after).bind fun (t, rest) =>
        if t.isEmpty then none else ended ('!' :: name ++ ['!']) rest
    | after =>
      (tagText? false after).bind fun (t, rest) =>
        ended (if name.isEmpty && t.isEmpty then [] else ['!']) rest
  | _ => none

-- ========================================================= directives

/-- A line for the reader of the text. -/
inductive Directive where
  | version (major minor : Nat)
  | tagHandle (handle : Text)
  deriving DecidableEq, Repr

/-- A number of at most nine digits, and what follows. -/
def shortNumber? (s : Text) : Option (Nat × Text) :=
  let digits := s.takeWhile Char.isDigit
  if digits.isEmpty || 9 < digits.length then none
  else
    some (digits.foldl (fun n c => n * 10 + (c.toNat - 48)) 0,
      s.dropWhile Char.isDigit)

/-- A directive behind its percent sign, and what follows its line. -/
def directive? (s : Text) : Option (Directive × Text) :=
  let name := s.takeWhile isNameChar
  let rest := s.dropWhile isNameChar
  let lineEnd := fun (d : Directive) (s : Text) =>
    (afterComment? s).map fun after => (d, after)
  if !atGap rest then none
  else if name == "YAML".toList then
    (shortNumber? (rest.dropWhile isSpacing)).bind fun (major, rest) =>
      match rest with
      | '.' :: rest =>
        (shortNumber? rest).bind fun (minor, rest) =>
          lineEnd (.version major minor) rest
      | _ => none
  else if name == "TAG".toList then
    match rest.dropWhile isSpacing with
    | '!' :: rest =>
      let word := rest.takeWhile isNameChar
      let after := rest.dropWhile isNameChar
      let handle? :=
        match after with
        | '!' :: after => some ('!' :: word ++ ['!'], after)
        | after => if word.isEmpty then some (['!'], after) else none
      handle?.bind fun (handle, rest) =>
        match rest with
        | c :: _ =>
          if isSpacing c then
            (tagText? true (rest.dropWhile isSpacing)).bind fun (t, rest) =>
              if t.isEmpty || !atGap rest then none
              else lineEnd (.tagHandle handle) rest
          else none
        | [] => none
    | _ => none
  else none

end ComponentMarkdown.Yaml
