/-
Text with tags, as a grammar over what may stand in a tag: text without `<`,
closing tags and opening tags in any order. An opening tag has a name, then
parts of a kind, and perhaps a slash. Each piece carries what makes it well
formed, so whatever has one of these types can be written.

A kind of part is known by how its parts are written (`TagPart`); all that is
asked of it is that the machine for opening tags goes through each of them.
-/
import ComponentMarkdown.Proofs.Markup.Opening
import ComponentMarkdown.Proofs.Rule.TagNames
import Mathlib.Data.List.Basic

namespace ComponentMarkdown

open Markup

namespace TaggedText

-- ============================================================== names

/-- No blank belongs to the name of a tag. -/
theorem isBlank_of_isTagNameChar {c : Char} (hc : isTagNameChar c = true) :
    isBlank c = false := isBlank_of_class (by decide +kernel) hc

theorem isQuote_of_isTagNameChar {c : Char} (hc : isTagNameChar c = true) :
    isQuote c = false := isQuote_of_class (by decide) hc

/-- No character of a name can follow the name of a tag. -/
theorem nameClass_isTagNameChar : NameClass isTagNameChar where
  alphanum c hc := by
    unfold isTagNameChar
    rw [isWordChar_of_alphanum hc]
    rfl
  visible c hc := by
    have hnot : c ∉ ['/', '>'] := not_mem_of_class (by decide +kernel) hc
    exact ⟨isBlank_of_isTagNameChar hc, by simpa [not_or] using hnot⟩

/-- The name of a tag. -/
structure TagName where
  first : Char
  rest : Text
  first_alpha : first.isAlpha = true
  rest_nameChar : ∀ c ∈ rest, isTagNameChar c = true

/-- The name as it is written. -/
def TagName.text (n : TagName) : Text := n.first :: n.rest

/-- A name is made of what belongs to one. -/
theorem TagName.nameChar (n : TagName) :
    ∀ c ∈ n.text, isTagNameChar c = true :=
  List.forall_mem_cons.2
    ⟨nameClass_isTagNameChar.alphanum _
      (isAlphanum_of_alpha n.first_alpha), n.rest_nameChar⟩

-- =============================================================== tags

/-- The machine for opening tags goes through blanks. -/
theorem leads_blanks (blanks : List Blank) :
    TagMode.Leads .attributes .attributes (blanks.map Subtype.val) :=
  TagMode.leads_of_stay fun c hc =>
    (TagMode.step_of_isBlank (isBlank_of_mem c hc)).2

/-- What may stand between the name of a tag and its end, and how it is
written. The machine for opening tags goes through it. -/
class TagPart (π : Type) where
  written : π → Text
  leads : ∀ part, TagMode.Leads .attributes .attributes (written part)

/-- Parts of which any may come first in a tag, since each starts with a
blank. -/
class LeadPart (π : Type) extends TagPart π where
  exists_lead : ∀ part, ∃ c t, written part = c :: t ∧ isBlank c = true

variable {π ρ : Type}

/-- An opening tag, with a slash or without. -/
structure OpenTag (π : Type) where
  name : TagName
  parts : List π
  slash : Bool

namespace OpenTag

/-- What follows the parts. -/
def ending (tag : OpenTag π) : Text := if tag.slash then ['/', '>'] else ['>']

/-- The tag behind its `<`. -/
def body [TagPart π] (tag : OpenTag π) : Text :=
  tag.name.text ++ (tag.parts.flatMap TagPart.written ++ tag.ending)

/-- The tag as it is written. -/
def written [TagPart π] (tag : OpenTag π) : Text := '<' :: tag.body

/-- The same tag with its parts replaced one by one. -/
def mapParts (f : π → ρ) (tag : OpenTag π) : OpenTag ρ :=
  ⟨tag.name, tag.parts.map f, tag.slash⟩

end OpenTag

/-- A closing tag, perhaps with blanks behind its name. -/
structure CloseTag where
  name : TagName
  tail : List Blank

namespace CloseTag

/-- The tag behind its `<`. -/
def body (tag : CloseTag) : Text :=
  '/' :: (tag.name.text ++ (tag.tail.map Subtype.val ++ ['>']))

/-- The tag as it is written. -/
def written (tag : CloseTag) : Text := '<' :: tag.body

end CloseTag

/-- Text without tags. -/
structure PlainText where
  text : Text
  plain : '<' ∉ text

/-- A stretch of text without tags, or a tag. -/
inductive Item (π : Type) where
  | text (t : PlainText)
  | closing (tag : CloseTag)
  | opening (tag : OpenTag π)

namespace Item

/-- The item as it is written. -/
def written [TagPart π] : Item π → Text
  | .text t => t.text
  | .closing tag => tag.written
  | .opening tag => tag.written

/-- The same item with the parts of an opening tag replaced one by one. -/
def mapParts (f : π → ρ) : Item π → Item ρ
  | .text t => .text t
  | .closing tag => .closing tag
  | .opening tag => .opening (tag.mapParts f)

end Item

end TaggedText

/-- Text and tags with parts of a kind. -/
abbrev Tagged (π : Type) := List (TaggedText.Item π)

namespace Tagged

variable {π ρ : Type}

/-- Text and tags as they are written, one after the other. -/
def written [TaggedText.TagPart π] (page : Tagged π) : Text :=
  page.flatMap TaggedText.Item.written

/-- The same text and tags with the parts of opening tags replaced one by
one. -/
def mapParts (f : π → ρ) (page : Tagged π) : Tagged ρ :=
  List.map (TaggedText.Item.mapParts f) page

/-- With its parts replaced by themselves, a text is the same. -/
theorem mapParts_id (page : Tagged π) : page.mapParts id = page := by
  have hitem (item : TaggedText.Item π) : item.mapParts id = item := by
    cases item with
    | text t => rfl
    | closing tag => rfl
    | opening tag =>
      exact congrArg (fun parts =>
        TaggedText.Item.opening ⟨tag.name, parts, tag.slash⟩)
        (List.map_id tag.parts)
  exact (congrArg (List.map · page) (funext hitem)).trans (List.map_id page)

theorem written_cons [TaggedText.TagPart π] (item : TaggedText.Item π)
    (page : Tagged π) :
    Tagged.written (item :: page) = item.written ++ page.written :=
  List.flatMap_cons

/-- Parts that are written in the same way make texts that are. -/
theorem written_mapParts_congr {σ : Type} [TaggedText.TagPart ρ]
    [TaggedText.TagPart σ] {f : π → ρ} {g : π → σ} {page : Tagged π}
    (h : ∀ tag, .opening tag ∈ page → ∀ part ∈ tag.parts,
      TaggedText.TagPart.written (f part)
        = TaggedText.TagPart.written (g part)) :
    (page.mapParts f).written = (page.mapParts g).written := by
  unfold mapParts written
  rw [List.flatMap_map, List.flatMap_map]
  refine List.flatMap_congr fun item hitem => ?_
  cases item with
  | text t => rfl
  | closing tag => rfl
  | opening tag =>
    have hparts : (tag.parts.map f).flatMap TaggedText.TagPart.written
        = (tag.parts.map g).flatMap TaggedText.TagPart.written := by
      rw [List.flatMap_map, List.flatMap_map]
      exact List.flatMap_congr fun part hpart => h tag hitem part hpart
    exact congrArg (fun inner => '<' :: (tag.name.text ++ (inner
      ++ tag.ending))) hparts

end Tagged

end ComponentMarkdown
