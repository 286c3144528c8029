/-
Attribute casing. HTML attribute names are all small letters, so known
names in mixed case, plain or bound by a colon, are written small inside
opening tags: `:frameBorder="0"` becomes `:frameborder="0"`. A name counts
only where it ends the attribute name: `frameBorder-color` is another one.
-/
import ComponentMarkdown.Markup.Opening
import ComponentMarkdown.Markup.Quoted
import ComponentMarkdown.Rule.Basic

namespace ComponentMarkdown

open Markup

/-- A name in mixed case, with the blank, and perhaps the colon, before
it. -/
structure MixedCaseName where
  lead : Text
  name : Text
  deriving DecidableEq, Repr

namespace MixedCaseName

/-- The attribute names with a spelling in small letters. -/
def known : List Text :=
  ["allowFullScreen".toList, "allowTransparency".toList,
   "frameBorder".toList, "marginHeight".toList, "marginWidth".toList,
   "referrerPolicy".toList]

/-- Whether an attribute name can end in front of the text. -/
def endsBefore : Text → Bool
  | [] => true
  | c :: _ => isBlank c || c == '=' || c == '/' || c == '>'

/-- The known name that a text starts with. -/
def known? (s : Text) : Option Text :=
  known.find? fun name =>
    name.isPrefixOf s && endsBefore (s.drop name.length)

/-- The name at the head of a text, its lead included. -/
def ofText? : Text → Option MixedCaseName
  | c :: ':' :: rest =>
    if isBlank c then (known? rest).map fun name => ⟨[c, ':'], name⟩
    else none
  | c :: rest =>
    if isBlank c then (known? rest).map fun name => ⟨[c], name⟩ else none
  | [] => none

theorem known?_isPrefix {s name : Text} (h : known? s = some name) :
    name <+: s := by
  have := List.find?_some h
  rw [Bool.and_eq_true] at this
  exact List.isPrefixOf_iff_prefix.1 this.1

theorem taken_isPrefix {s : Text} {m : MixedCaseName}
    (h : ofText? s = some m) : m.lead ++ m.name <+: s := by
  unfold ofText? at h
  split at h
  · split at h
    · obtain ⟨name, hn, rfl⟩ := Option.map_eq_some_iff.1 h
      exact List.cons_prefix_cons.2 ⟨rfl, List.cons_prefix_cons.2
        ⟨rfl, known?_isPrefix hn⟩⟩
    · cases h
  · split at h
    · obtain ⟨name, hn, rfl⟩ := Option.map_eq_some_iff.1 h
      exact List.cons_prefix_cons.2 ⟨rfl, known?_isPrefix hn⟩
    · cases h
  · cases h

theorem lead_ne_nil {s : Text} {m : MixedCaseName}
    (h : ofText? s = some m) : m.lead ≠ [] := by
  unfold ofText? at h
  split at h
  · split at h
    · obtain ⟨name, -, rfl⟩ := Option.map_eq_some_iff.1 h
      simp
    · cases h
  · split at h
    · obtain ⟨name, -, rfl⟩ := Option.map_eq_some_iff.1 h
      simp
    · cases h
  · cases h

/-- The same attribute in small letters. -/
def lowered (m : MixedCaseName) : Text := m.lead ++ m.name.asciiLower

/-- Finds mixed-case names outside quoted values. -/
def scanner : Scanner (Option MixedCaseName) :=
  skippingQuoted
    (fun s => (ofText? s).map fun m => ⟨m.lead ++ m.name, m⟩)
    (by
      intro s h hs
      obtain ⟨m, hm, rfl⟩ := Option.map_eq_some_iff.1 hs
      exact fun he => lead_ne_nil hm (List.append_eq_nil_iff.1 he).1)
    (by
      intro s h hs
      obtain ⟨m, hm, rfl⟩ := Option.map_eq_some_iff.1 hs
      exact taken_isPrefix hm)

/-- Lowers the names in one tag. -/
def convertTag (tag : Text) : Edited :=
  scanner.replace (fun h => h.value.map lowered) tag

end MixedCaseName

/-- Known mixed-case attribute names to small letters. -/
def Rule.attributeCasing : Rule where
  name := "attribute-casing"
  description := "Lowercase camelCase attribute names such as allowFullScreen and frameBorder"
  apply := editOpeningTags MixedCaseName.convertTag

end ComponentMarkdown
