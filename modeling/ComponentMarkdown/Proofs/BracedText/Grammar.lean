/-
Tagged text with values in braces, as a grammar. It is made as tagged text
is, but an attribute may also be a name with an expression in braces, which
holds neither braces nor a double quote and anything else: angle brackets,
single quotes, what looks like a tag.

What becomes of it is said attribute by attribute (`converted`): digits are a
literal value and go without the blanks around them, any other expression is
bound and kept as it is, and braces around blanks stay. The others are
counted (`conversions`), and none of them is left behind
(`conversions_converted`).
-/
import ComponentMarkdown.Proofs.Rule.BraceAttributes
import ComponentMarkdown.Proofs.TaggedText.Grammar
import Mathlib.Algebra.GroupWithZero.Nat

namespace ComponentMarkdown

open Markup
open TaggedText (Attribute Item LeadPart)

namespace BraceAttribute.WellFormed

-- =============================================== attributes in braces

variable {a : BraceAttribute}

/-- What belongs to the name of such an attribute belongs to the name of any
attribute. -/
theorem isNameChar_of_braces {c : Char} (hc : isNameChar c = true) :
    TaggedText.isNameChar c = true := by
  have hblank : isBlank c = false := by
    rw [← Bool.not_eq_true]
    intro hblank
    rw [isNameChar_of_isBlank hblank] at hc
    cases hc
  have hmarks : c ∉ ['"', '\'', '<', '>', '=', '/', '{', '}'] :=
    not_mem_of_class (by decide) hc
  simp only [List.mem_cons, List.not_mem_nil, or_false, not_or] at hmarks
  obtain ⟨hdouble, hsingle, hmarks⟩ := hmarks
  unfold TaggedText.isNameChar
  rw [hblank, isQuote_eq_false_iff.2 ⟨hdouble, hsingle⟩]
  simp [hmarks]

theorem nameChar (ha : a.WellFormed) :
    ∀ c ∈ a.name, TaggedText.isNameChar c = true :=
  fun c hc => isNameChar_of_braces (ha.isNameChar_name c hc)

theorem not_mem_value (ha : a.WellFormed) : '"' ∉ a.value :=
  fun h => absurd (ha.value _ h) (by decide)

/-- The attribute, bound by a colon or not, with another value in double
quotes. -/
def quotedAs (ha : a.WellFormed) (bound : Bool) (value : Text)
    (hvalue : '"' ∉ value) : Attribute where
  lead := ⟨a.lead, ha.lead⟩
  name := {
    text := (if bound then [':'] else []) ++ a.name
    ne_nil := by
      obtain ⟨first, rest, hname, -⟩ := ha.name
      rw [hname]
      exact List.append_ne_nil_of_right_ne_nil _ (List.cons_ne_nil _ _)
    nameChar := List.forall_mem_append.2
      ⟨by cases bound <;> decide, ha.nameChar⟩ }
  assigned := some ⟨[], [], ⟨'"', value, isQuote_double, hvalue⟩⟩

/-- The attribute with its value in quotes instead of braces: digits are a
literal value, and any other expression is bound. A blank one has no such
form. -/
def quoted? (ha : a.WellFormed) : Option Attribute :=
  if a.value.trim = [] then none
  else if a.value.trim.all Char.isDigit then
    some (ha.quotedAs false a.value.trim
      fun h => ha.not_mem_value (Text.mem_of_mem_trim h))
  else some (ha.quotedAs true a.value ha.not_mem_value)

/-- Only a blank value has no form in quotes. -/
theorem quoted?_eq_none_iff (ha : a.WellFormed) :
    ha.quoted? = none ↔ a.value.trim = [] := by
  unfold quoted?
  split
  · rename_i hblank
    exact iff_of_true rfl hblank
  · rename_i hblank
    split <;> exact iff_of_false (Option.some_ne_none _) hblank

open TagMode in
/-- The machine for opening tags goes through an attribute in braces. -/
theorem leads_written (ha : a.WellFormed) :
    Leads .attributes .attributes a.written := by
  have hlead : Leads .attributes .attributes [a.lead] :=
    leads_of_step (step_of_isBlank ha.lead).2
  have hname : Leads .attributes .attributes a.name :=
    leads_of_stay fun c hc => step_attributes_of_not_mem
      (not_mem_of_class (by decide) (ha.nameChar c hc))
  have hequals : Leads .attributes .attributes ['='] := leads_of_step rfl
  have hvalue : ∀ c ∈ a.value, c ≠ '{' ∧ c ≠ '}' := by
    intro c hc
    have hnot := not_mem_of_class
      (show ∀ d ∈ ['{', '}'], isValueChar d = false by decide)
      (ha.value c hc)
    simpa [not_or] using hnot
  have hall := (hlead.append hname).append
    (hequals.append (leads_braces hvalue))
  have hwritten : a.written = ([a.lead] ++ a.name)
      ++ (['='] ++ '{' :: (a.value ++ ['}'])) := by
    simp [written]
  rw [hwritten]
  exact hall

end BraceAttribute.WellFormed

namespace BracedText

-- =============================================================== tags

/-- What stands between the name of a tag and its end. -/
inductive Part where
  | blank (b : Blank)
  | attr (a : Attribute)
  | braced (a : BraceAttribute) (wellFormed : a.WellFormed)

namespace Part

/-- The part as it is written. -/
def written : Part → Text
  | .blank b => [b.val]
  | .attr a => a.written
  | .braced a _ => a.written

open TagMode in
/-- The machine for opening tags goes through a part. -/
theorem leads_written (part : Part) :
    Leads .attributes .attributes part.written := by
  cases part with
  | blank b => exact TaggedText.leads_blanks [b]
  | attr a => exact a.leads_written
  | braced a ha => exact ha.leads_written

/-- A part starts with a blank. -/
theorem exists_lead (part : Part) :
    ∃ c t, part.written = c :: t ∧ isBlank c = true := by
  cases part with
  | blank b => exact ⟨b.val, [], rfl, b.2⟩
  | attr a => exact ⟨a.lead.val, _, rfl, a.lead.2⟩
  | braced a ha => exact ⟨a.lead, _, rfl, ha.lead⟩

end Part

instance : LeadPart Part where
  written := Part.written
  leads := Part.leads_written
  exists_lead := Part.exists_lead

end BracedText

/-- Text and tags, with values in quotes and in braces. -/
abbrev BracedText := Tagged BracedText.Part

namespace BracedText

-- ========================================================= conversion

/-- Whether a part is an attribute with more than blanks in its braces. -/
def Part.isConverted : Part → Bool
  | .braced a _ => !a.value.trim.isEmpty
  | _ => false

/-- The part with its value in quotes instead of braces, unless it is
blank. -/
def Part.converted : Part → Part
  | .braced a ha => (ha.quoted?.map .attr).getD (.braced a ha)
  | part => part

/-- The text with its values in quotes instead of braces. -/
def converted (page : BracedText) : BracedText :=
  page.mapParts Part.converted

/-- How many values of an item there are to put in quotes. -/
def conversionsOf : Item Part → Nat
  | .opening tag => tag.parts.countP Part.isConverted
  | _ => 0

/-- How many values there are to put in quotes. -/
def conversions (page : BracedText) : Nat :=
  (List.map conversionsOf page).sum

/-- Once converted, a part stays as it is. -/
theorem Part.isConverted_converted (part : Part) :
    part.converted.isConverted = false := by
  cases part with
  | blank b => rfl
  | attr a => rfl
  | braced a ha =>
    show Part.isConverted ((ha.quoted?.map Part.attr).getD (.braced a ha))
      = false
    cases hquoted : ha.quoted? with
    | some new => rfl
    | none =>
      show (!a.value.trim.isEmpty) = false
      rw [ha.quoted?_eq_none_iff.1 hquoted]
      rfl

/-- No value is left to put in quotes. -/
theorem conversions_converted (page : BracedText) :
    page.converted.conversions = 0 := by
  unfold conversions converted Tagged.mapParts
  rw [List.map_map, List.sum_eq_zero_iff_forall_eq_nat, List.forall_mem_map]
  intro item _
  cases item with
  | text t => rfl
  | closing tag => rfl
  | opening tag =>
    show (tag.parts.map Part.converted).countP Part.isConverted = 0
    rw [List.countP_map, List.countP_eq_zero]
    intro part _
    rw [Function.comp_apply, part.isConverted_converted]
    decide

end BracedText

end ComponentMarkdown
