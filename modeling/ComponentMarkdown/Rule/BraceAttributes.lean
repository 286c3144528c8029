/-
Brace attributes. Inside an opening tag, `cols={2}` becomes `cols="2"` and
`items={list}` becomes `:items="list"`: digits are a literal value, any
other expression is bound and kept as written. Braces around nothing, and
expressions that hold braces or a double quote themselves, stay.
-/
import ComponentMarkdown.Markup.Opening
import ComponentMarkdown.Markup.Quoted
import ComponentMarkdown.Rule.Basic

namespace ComponentMarkdown

open Markup

/-- An attribute `name={value}` and the blank before it. -/
structure BraceAttribute where
  lead : Char
  name : Text
  value : Text
  deriving DecidableEq, Repr

namespace BraceAttribute

/-- A character of an attribute name behind its first. -/
def isNameChar (c : Char) : Bool := isWordChar c || c == '-'

/-- A character that an expression may hold. -/
def isValueChar (c : Char) : Bool := !(c == '{' || c == '}' || c == '"')

/-- The attribute as it stands in a tag. -/
def written (a : BraceAttribute) : Text :=
  a.lead :: a.name ++ '=' :: '{' :: a.value ++ ['}']

/-- The attribute at the head of a text, its lead included. -/
def ofText? : Text → Option BraceAttribute
  | lead :: first :: rest =>
    if isBlank lead && (first.isAlpha || first == '_') then
      match rest.dropWhile isNameChar with
      | '=' :: '{' :: inside =>
        match inside.takeWhile isValueChar, inside.dropWhile isValueChar with
        | v :: value, '}' :: _ =>
          some ⟨lead, first :: rest.takeWhile isNameChar, v :: value⟩
        | _, _ => none
      | _ => none
    else none
  | _ => none

theorem written_isPrefix {s : Text} {a : BraceAttribute}
    (h : ofText? s = some a) : a.written <+: s := by
  unfold ofText? at h
  split at h
  · rename_i lead first rest
    split at h
    · split at h
      · rename_i inside hi
        split at h
        · rename_i v value after hv ha
          cases h
          refine ⟨after, ?_⟩
          have h₁ := List.takeWhile_append_dropWhile (p := isNameChar)
            (l := rest)
          have h₂ := List.takeWhile_append_dropWhile (p := isValueChar)
            (l := inside)
          rw [hi] at h₁
          rw [hv, ha] at h₂
          show lead :: first :: rest.takeWhile isNameChar
            ++ '=' :: '{' :: (v :: value) ++ ['}'] ++ after = _
          rw [List.append_assoc]
          simp only [List.cons_append, List.append_assoc, List.nil_append]
            at h₂ ⊢
          rw [h₂, h₁]
        · cases h
      · cases h
    · cases h
  · cases h

theorem written_ne_nil (a : BraceAttribute) : a.written ≠ [] := by
  simp [written]

/-- What stands in for the attribute: a literal for digits, a binding for
any other expression, nothing for a blank one. -/
def template? (a : BraceAttribute) : Option Text :=
  match a.value.trim with
  | [] => none
  | value =>
    if value.all Char.isDigit then
      some (a.lead :: a.name ++ '=' :: '"' :: value ++ ['"'])
    else some (a.lead :: ':' :: a.name ++ '=' :: '"' :: a.value ++ ['"'])

/-- Finds brace attributes outside quoted values. -/
def scanner : Scanner (Option BraceAttribute) :=
  skippingQuoted
    (fun s => (ofText? s).map fun a => ⟨a.written, a⟩)
    (by
      intro s h hs
      obtain ⟨a, -, rfl⟩ := Option.map_eq_some_iff.1 hs
      exact a.written_ne_nil)
    (by
      intro s h hs
      obtain ⟨a, ha, rfl⟩ := Option.map_eq_some_iff.1 hs
      exact written_isPrefix ha)

/-- Converts the brace attributes of one tag. -/
def convertTag (tag : Text) : Edited :=
  scanner.replace (fun h => h.value.bind template?) tag

end BraceAttribute

/-- Brace attributes to literal and bound attributes. -/
def Rule.braceAttributes : Rule where
  name := "brace-attributes"
  description := "Rewrite name=\x7bvalue\x7d attributes to name=\"digits\" or :name=\"expression\""
  apply := editOpeningTags BraceAttribute.convertTag

end ComponentMarkdown
