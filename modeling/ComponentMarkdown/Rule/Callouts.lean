/-
Callouts. `<Note>`, `<Tip>`, `<Info>`, `<Warning>` and `<Check>` become
`<div class="callout callout-note">` and so on, with a static class of the
tag merged in and its other attributes kept. A tag whose class cannot be
merged stays, and so does its closing tag; tags inside code spans are text
about callouts and stay as well.

Which closing tag belongs to which opening tag is decided per kind: a
closing tag closes the latest tag of its kind that is still open. What is
open is carried through all gaps between code spans.
-/
import ComponentMarkdown.Markup.Attributes
import ComponentMarkdown.Markup.CodeSpan
import ComponentMarkdown.Rule.Basic
import ComponentMarkdown.Rule.ClassAttribute

namespace ComponentMarkdown

open Markup

-- ============================================================== kinds

/-- The callout components. -/
inductive CalloutKind where
  | note
  | tip
  | info
  | warning
  | check
  deriving DecidableEq, Repr

namespace CalloutKind

/-- Every kind. -/
def all : List CalloutKind := [.note, .tip, .info, .warning, .check]

/-- The name of the kind's tag. -/
def tagName : CalloutKind → Text
  | .note => "Note".toList
  | .tip => "Tip".toList
  | .info => "Info".toList
  | .warning => "Warning".toList
  | .check => "Check".toList

/-- The class that marks the kind. -/
def className (k : CalloutKind) : Text :=
  "callout-".toList ++ k.tagName.asciiLower

/-- The kind whose name a text starts with. -/
def ofText? (s : Text) : Option CalloutKind :=
  all.find? fun k => k.tagName.isPrefixOf s

theorem ofText?_isPrefix {s : Text} {k : CalloutKind}
    (h : ofText? s = some k) : k.tagName <+: s := by
  have := List.find?_some h
  exact List.isPrefixOf_iff_prefix.1 this

end CalloutKind

-- =============================================================== tags

/-- A callout tag as it is read. -/
structure CalloutTag where
  closing : Bool
  kind : CalloutKind
  attributes : Text
  selfClosing : Bool
  deriving DecidableEq, Repr

namespace CalloutTag

/-- The end of a tag: `>`, or blanks and `/>`. Reads whether it closes
itself. -/
def end? (s : Text) : Option (Hit Bool) :=
  match s with
  | '>' :: _ => some ⟨['>'], false⟩
  | s => (selfClose? s).map fun t => ⟨t, true⟩

theorem end?_isPrefix {s : Text} {h : Hit Bool} (hs : end? s = some h) :
    h.taken <+: s := by
  unfold end? at hs
  split at hs
  · rename_i rest
    cases hs
    exact ⟨rest, rfl⟩
  · obtain ⟨t, ht, rfl⟩ := Option.map_eq_some_iff.1 hs
    exact selfClose?_isPrefix ht

/-- A tag read behind its `<` or `</`, which are given. -/
def read? (opening : Text) (closing : Bool) (s : Text) :
    Option (Hit CalloutTag) :=
  (CalloutKind.ofText? s).bind fun kind =>
    (attributes? end? (s.drop kind.tagName.length)).map fun r =>
      ⟨opening ++ kind.tagName ++ r.1 ++ r.2.taken,
        ⟨closing, kind, r.1, r.2.value⟩⟩

/-- The callout tag at the head of a text. -/
def ofText? : Text → Option (Hit CalloutTag)
  | '<' :: '/' :: rest => read? ['<', '/'] true rest
  | '<' :: rest => read? ['<'] false rest
  | _ => none

theorem read?_isPrefix {opening s : Text} {closing : Bool}
    {h : Hit CalloutTag} (hs : read? opening closing s = some h) :
    h.taken <+: opening ++ s := by
  obtain ⟨kind, hk, hs⟩ := Option.bind_eq_some_iff.1 hs
  obtain ⟨⟨a, e⟩, hr, rfl⟩ := Option.map_eq_some_iff.1 hs
  obtain ⟨rest, rfl⟩ := CalloutKind.ofText?_isPrefix hk
  rw [List.drop_left] at hr
  simp only [List.append_assoc]
  exact (List.prefix_append_right_inj _).2
    ((List.prefix_append_right_inj _).2
      (attributes?_isPrefix end?_isPrefix hr))

theorem ofText?_isPrefix {s : Text} {h : Hit CalloutTag}
    (hs : ofText? s = some h) : h.taken <+: s := by
  unfold ofText? at hs
  split at hs
  · exact read?_isPrefix hs
  · exact read?_isPrefix hs
  · cases hs

theorem read?_taken_ne_nil {opening s : Text} {closing : Bool}
    {h : Hit CalloutTag} (ho : opening ≠ [])
    (hs : read? opening closing s = some h) : h.taken ≠ [] := by
  obtain ⟨kind, -, hs⟩ := Option.bind_eq_some_iff.1 hs
  obtain ⟨r, -, rfl⟩ := Option.map_eq_some_iff.1 hs
  simp [ho]

theorem ofText?_taken_ne_nil {s : Text} {h : Hit CalloutTag}
    (hs : ofText? s = some h) : h.taken ≠ [] := by
  unfold ofText? at hs
  split at hs
  · exact read?_taken_ne_nil (by simp) hs
  · exact read?_taken_ne_nil (by simp) hs
  · cases hs

/-- Finds callout tags. -/
def scanner : Scanner CalloutTag :=
  ⟨ofText?, ofText?_taken_ne_nil, ofText?_isPrefix⟩

end CalloutTag

-- =========================================================== open tags

/-- The opening tags not closed yet, the latest first, each with whether
it was converted. -/
abbrev OpenCallouts := List (CalloutKind × Bool)

/-- Closes the latest open tag of a kind: whether it was converted, if
there is one, and what stays open. -/
def OpenCallouts.close (kind : CalloutKind) :
    OpenCallouts → Option Bool × OpenCallouts
  | [] => (none, [])
  | (k, converted) :: rest =>
    if k = kind then (some converted, rest)
    else
      let (found, rest) := close kind rest
      (found, (k, converted) :: rest)

-- ========================================================== conversion

namespace CalloutTag

/-- The container that stands in for an opening tag, unless its class
cannot be merged. -/
def container? (tag : CalloutTag) : Option Text :=
  let written (classes rest : Text) : Text :=
    "<div class=\"callout ".toList ++ tag.kind.className
      ++ (match classes.trim with
          | [] => []
          | more => ' ' :: more)
      ++ '"' :: rest ++ ['>']
  let attributes := tag.attributes.trimEnd
  match ClassAttribute.ofAttributes attributes with
  | .absent => some (written [] attributes)
  | .static classes others => some (written classes others)
  | .unmergeable => none

/-- The closing tag of a container. -/
def containerEnd : Text := "</div>".toList

/-- Converts one tag, given what is open before it. A closing tag with
attributes or a slash is no closing tag of a callout and stays; a closing
tag that closes nothing is converted. -/
def convert? (tag : CalloutTag) (opened : OpenCallouts) :
    Option Text × OpenCallouts :=
  if tag.closing then
    if tag.attributes.trimEnd.isEmpty && !tag.selfClosing then
      match opened.close tag.kind with
      | (some false, opened) => (none, opened)
      | (_, opened) => (some containerEnd, opened)
    else (none, opened)
  else
    let container := tag.container?
    if tag.selfClosing then (container.map (· ++ containerEnd), opened)
    else (container, (tag.kind, container.isSome) :: opened)

end CalloutTag

/-- Converts the callout tags of a text without code spans. -/
def convertCallouts (s : Text) (opened : OpenCallouts) :
    Edited × OpenCallouts :=
  CalloutTag.scanner.spliceFrom
    (fun h opened =>
      let (new?, opened) := h.value.convert? opened
      (Scanner.substitution h new?, opened))
    opened s

/-- Callouts to styled containers. -/
def Rule.callouts : Rule where
  name := "callouts"
  description := "Rewrite <Note>, <Tip>, <Info>, <Warning> and <Check> callouts to styled <div> containers"
  apply s := (editOutsideCode convertCallouts [] s).1

end ComponentMarkdown
