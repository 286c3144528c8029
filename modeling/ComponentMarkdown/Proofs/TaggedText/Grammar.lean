/-
Tagged text as a grammar: text with tags, in which attributes and blanks may
stand. An attribute is a name alone, or a name with a quoted value, which may
hold anything but its own quote. Each part carries what makes it well formed,
so whatever has one of these types can be written.

What counts of such a text are the quoted values of its tags, in order
(`values`). Those that no edit may touch are all of them but the classes of a
callout that can be merged into those of its container (`keptValues`).
-/
import ComponentMarkdown.Proofs.Tagged.Grammar
import ComponentMarkdown.Proofs.Text.Case

namespace ComponentMarkdown

open Markup

namespace TaggedText

-- ========================================================= characters

/-- A character that the name of an attribute may hold. -/
def isNameChar (c : Char) : Bool :=
  !(isBlank c || isQuote c || ['<', '>', '=', '/', '{', '}'].contains c)

/-- No blank belongs to a name. -/
theorem isBlank_of_isNameChar {c : Char} (hc : isNameChar c = true) :
    isBlank c = false := by
  rw [← Bool.not_eq_true]
  intro hblank
  unfold isNameChar at hc
  rw [hblank] at hc
  cases hc

theorem isNameChar_of_isBlank {c : Char} (hc : isBlank c = true) :
    isNameChar c = false := by
  rw [isNameChar, hc]
  rfl

theorem isQuote_of_isNameChar {c : Char} (hc : isNameChar c = true) :
    isQuote c = false := isQuote_of_class (by decide) hc

-- ============================================================== names

/-- The name of an attribute. -/
structure AttributeName where
  text : Text
  ne_nil : text ≠ []
  nameChar : ∀ c ∈ text, isNameChar c = true

theorem class_ne_nil : "class".toList ≠ [] := by decide

theorem nameChar_class : ∀ c ∈ "class".toList, isNameChar c = true := by
  decide

theorem id_ne_nil : "id".toList ≠ [] := by decide

theorem nameChar_id : ∀ c ∈ "id".toList, isNameChar c = true := by decide

theorem title_ne_nil : "title".toList ≠ [] := by decide

theorem nameChar_title : ∀ c ∈ "title".toList, isNameChar c = true := by
  decide

-- ========================================================= attributes

/-- A value between quotes, which does not hold the quote itself. -/
structure QuotedValue where
  quote : Char
  text : Text
  quote_isQuote : isQuote quote = true
  unquoted : quote ∉ text

/-- The value with its quotes. -/
def QuotedValue.written (v : QuotedValue) : Text :=
  v.quote :: (v.text ++ [v.quote])

/-- A quoted value behind an equals sign, with blanks on either side of
it. -/
structure Assigned where
  before : List Blank
  after : List Blank
  value : QuotedValue

/-- The equals sign and the value, with the blanks around the sign. -/
def Assigned.written (v : Assigned) : Text :=
  v.before.map Subtype.val ++ '=' :: (v.after.map Subtype.val
    ++ v.value.written)

/-- An attribute and the blank before it. -/
structure Attribute where
  lead : Blank
  name : AttributeName
  assigned : Option Assigned

namespace Attribute

/-- The name and the blank before it. -/
def head (a : Attribute) : Text := a.lead.val :: a.name.text

/-- What follows the name. -/
def ending (a : Attribute) : Text :=
  match a.assigned with
  | none => []
  | some v => v.written

/-- The attribute as it is written. -/
def written (a : Attribute) : Text := a.head ++ a.ending

/-- The quoted value, if the attribute has one. -/
def value? (a : Attribute) : Option QuotedValue :=
  a.assigned.map Assigned.value

open TagMode in
/-- The machine for opening tags goes through an attribute. -/
theorem leads_written (a : Attribute) :
    Leads .attributes .attributes a.written := by
  have hname : Leads .attributes .attributes a.name.text :=
    leads_of_stay fun c hc => step_attributes_of_not_mem
      (not_mem_of_class (by decide) (a.name.nameChar c hc))
  have hending : Leads .attributes .attributes a.ending := by
    unfold ending
    cases a.assigned with
    | none => exact leads_nil
    | some v =>
      have hequals : Leads .attributes .attributes ['='] := leads_of_step rfl
      have hvalue : Leads .attributes .attributes v.value.written :=
        leads_quoted v.value.quote_isQuote v.value.unquoted
      exact (leads_blanks v.before).append
        (hequals.append ((leads_blanks v.after).append hvalue))
  exact ((leads_blanks [a.lead]).append hname).append hending

end Attribute

-- =============================================================== tags

/-- What stands between the name of a tag and its end. -/
inductive Part where
  | blank (b : Blank)
  | attr (a : Attribute)

namespace Part

/-- The part as it is written. -/
def written : Part → Text
  | .blank b => [b.val]
  | .attr a => a.written

/-- The attribute that a part is. -/
def attribute? : Part → Option Attribute
  | .blank _ => none
  | .attr a => some a

open TagMode in
/-- The machine for opening tags goes through a part. -/
theorem leads_written (part : Part) :
    Leads .attributes .attributes part.written := by
  cases part with
  | blank b => exact leads_blanks [b]
  | attr a => exact a.leads_written

/-- A part starts with a blank. -/
theorem exists_lead (part : Part) :
    ∃ c t, part.written = c :: t ∧ isBlank c = true := by
  cases part with
  | blank b => exact ⟨b.val, [], rfl, b.2⟩
  | attr a => exact ⟨a.lead.val, a.name.text ++ a.ending, rfl, a.lead.2⟩

end Part

instance : LeadPart Part where
  written := Part.written
  leads := Part.leads_written
  exists_lead := Part.exists_lead

@[simp] theorem written_part : (TagPart.written : Part → Text) = Part.written :=
  rfl

namespace OpenTag

/-- The attributes of a tag, in order. -/
def attributes (tag : OpenTag Part) : List Attribute :=
  tag.parts.filterMap Part.attribute?

/-- The quoted values of a tag, in order. -/
def values (tag : OpenTag Part) : List QuotedValue :=
  tag.attributes.filterMap Attribute.value?

end OpenTag

namespace Item

/-- The quoted values of an item. -/
def values : Item Part → List QuotedValue
  | .opening tag => tag.values
  | _ => []

end Item

end TaggedText

/-- Text and tags, with attributes and blanks in the tags. -/
abbrev TaggedText := Tagged TaggedText.Part

namespace TaggedText

/-- The quoted values of the tags, in order. -/
def values (page : TaggedText) : List QuotedValue := page.flatMap Item.values

-- ===================================================== what is written

theorem isInfix_flatMap {α : Type} {write : α → Text} {x : α} {l : List α}
    (h : x ∈ l) : write x <:+: l.flatMap write :=
  List.infix_of_mem_flatten (List.mem_map_of_mem h)

/-- What the value of an attribute holds stands in the attribute, -/
theorem Attribute.isInfix_written {a : Attribute} {v : QuotedValue}
    (h : a.value? = some v) : v.text <:+: a.written := by
  obtain ⟨assigned, hassigned, rfl⟩ := Option.map_eq_some_iff.1 h
  have hwritten : a.written = a.head ++ assigned.written := by
    unfold written ending
    rw [hassigned]
  rw [hwritten]
  exact ⟨a.head ++ (assigned.before.map Subtype.val ++ '='
    :: (assigned.after.map Subtype.val ++ [assigned.value.quote])),
    [assigned.value.quote], by simp [Assigned.written, QuotedValue.written]⟩

/-- and in the tag. -/
theorem OpenTag.isInfix_written {tag : OpenTag Part} {v : QuotedValue}
    (h : v ∈ tag.values) : v.text <:+: tag.written := by
  obtain ⟨a, ha, hvalue⟩ := List.mem_filterMap.1 h
  obtain ⟨part, hpart, hattribute⟩ := List.mem_filterMap.1 ha
  have hwritten : part.written = a.written := by
    cases part with
    | blank b => cases hattribute
    | attr b =>
      cases hattribute
      rfl
  have hparts : part.written <:+: tag.parts.flatMap Part.written :=
    isInfix_flatMap hpart
  rw [hwritten] at hparts
  refine (Attribute.isInfix_written hvalue).trans (hparts.trans ?_)
  exact ⟨'<' :: tag.name.text, tag.ending, List.append_assoc ..⟩

/-- What a value holds stands in the text. -/
theorem isInfix_written {page : TaggedText} {v : QuotedValue}
    (h : v ∈ page.values) : v.text <:+: page.written := by
  obtain ⟨item, hitem, hv⟩ := List.mem_flatMap.1 h
  refine List.IsInfix.trans ?_ (isInfix_flatMap hitem)
  cases item with
  | text t => cases hv
  | closing tag => cases hv
  | opening tag => exact OpenTag.isInfix_written hv

-- ============================================================ callouts

/-- The kind of callout that a tag of this name is. -/
def TagName.kind? (n : TagName) : Option CalloutKind :=
  CalloutKind.named? n.text

/-- Classes that can be written in double quotes. -/
abbrev Classes := {t : Text // '"' ∉ t}

/-- Whether this is a class attribute, bound ones included. -/
def Attribute.isClass (a : Attribute) : Bool :=
  ClassUse.spellings.any fun p => p.1 == a.name.text

/-- The classes of a class attribute, unless they are bound or cannot be
written in double quotes. -/
def Attribute.classes? (a : Attribute) : Option Classes :=
  if a.name.text = "class".toList then
    match a.assigned with
    | none => some ⟨[], List.not_mem_nil⟩
    | some v =>
      if h : '"' ∈ v.value.text then none else some ⟨v.value.text, h⟩
  else none

namespace OpenTag

/-- The classes that attributes give a tag, if there is one class attribute
at most, and it can be merged into others. -/
def classes? (tag : OpenTag Part) : Option Classes :=
  match tag.attributes.filter Attribute.isClass with
  | [] => some ⟨[], List.not_mem_nil⟩
  | [a] => a.classes?
  | _ => none

/-- Whether this is a callout whose classes, if it has any, can be
merged. -/
def isMerged (tag : OpenTag Part) : Bool :=
  tag.name.kind?.isSome && tag.classes?.isSome

/-- The values of a tag but for a class that is merged. -/
def keptValues (tag : OpenTag Part) : List QuotedValue :=
  if tag.isMerged then
    (tag.attributes.filter fun a => !a.isClass).filterMap Attribute.value?
  else tag.values

end OpenTag

/-- The values of an item but for a class that is merged. -/
def Item.keptValues : Item Part → List QuotedValue
  | .opening tag => tag.keptValues
  | _ => []

/-- The quoted values of the tags but for merged classes, in order. -/
def keptValues (page : TaggedText) : List QuotedValue :=
  page.flatMap Item.keptValues

end TaggedText

end ComponentMarkdown
