/-
The rule for braces, on a page. A page is written as the tagged text with
values in braces that has the same tags (`written_braced`), and what the rule
makes of that text is the page with its values in quotes
(`written_converted_braced`).
-/
import ComponentMarkdown.Proofs.BracedText.Conversion
import ComponentMarkdown.Proofs.Page.Tagged

namespace ComponentMarkdown.Page

open Markup

-- ============================================================ embedding

/-- The rule for braces reads the attribute. -/
theorem BracedAttribute.wellFormed (a : BracedAttribute) :
    a.toBrace.WellFormed where
  lead := a.lead.2
  name := ⟨a.name.first, a.name.rest, rfl, a.name.first_start, fun c hc =>
    nameChar_of_isNameChar (a.name.rest_nameChar c hc)⟩
  value_ne_nil h := a.visible (by
    have hnil : a.value = [] := h
    rw [hnil]
    rfl)
  value := a.value_char

/-- What stands for a value in braces is the value in quotes. -/
theorem BracedAttribute.template?_toBrace (a : BracedAttribute) :
    a.toBrace.template? = some a.quoted.written := by
  unfold BraceAttribute.template? quoted
  dsimp only [toBrace]
  split
  · rename_i hnil
    exact absurd hnil a.visible
  · split <;>
      simp [Attribute.written, Attribute.head, Attribute.assigned,
        QuotedValue.written]

/-- The attribute as a part of tagged text with values in braces. -/
def SourceAttribute.toPart : SourceAttribute → BracedText.Part
  | .plain a => .attr a.tagged
  | .braced a => .braced a.toBrace a.wellFormed

/-- The tag as one of tagged text with values in braces. -/
def OpenTag.braced (tag : OpenTag SourceAttribute) :
    TaggedText.OpenTag BracedText.Part where
  name := tag.name.tagged
  parts := tag.attributes.map SourceAttribute.toPart ++ tag.tail.map .blank
  slash := tag.slash

/-- The item as one of tagged text with values in braces. -/
def Item.braced : Item SourceAttribute → TaggedText.Item BracedText.Part
  | .text t => .text ⟨t.text, t.not_mem_opening⟩
  | .closing name => .closing ⟨name.tagged, []⟩
  | .opening tag => .opening tag.braced

/-- The page as tagged text with values in braces. -/
def braced (page : Page SourceAttribute) : BracedText :=
  List.map Item.braced page

-- ============================================================== writing

/-- The part is written as the attribute is. -/
theorem SourceAttribute.written_toPart (a : SourceAttribute) :
    a.toPart.written = a.written := by
  cases a with
  | plain a => exact a.written_tagged
  | braced a => rfl

/-- Converted, an attribute is the one with its value in quotes. -/
theorem SourceAttribute.written_converted (a : SourceAttribute) :
    a.toPart.converted.written = a.quoted.written := by
  cases a with
  | plain a => exact a.written_tagged
  | braced a =>
    have hquoted := BraceAttribute.template?_eq_quoted? a.wellFormed
    rw [a.template?_toBrace] at hquoted
    obtain ⟨new, hnew, hwritten⟩ := Option.map_eq_some_iff.1 hquoted.symm
    show BracedText.Part.written
      ((a.wellFormed.quoted?.map BracedText.Part.attr).getD _) = _
    rw [hnew]
    exact hwritten

/-- The tag is written as the one of the page. -/
theorem OpenTag.written_braced (tag : OpenTag SourceAttribute) :
    tag.braced.written = tag.written SourceAttribute.written := by
  have hparts : tag.braced.parts.flatMap BracedText.Part.written
      = tag.attributes.flatMap SourceAttribute.written
        ++ tag.tail.map Subtype.val := by
    show List.flatMap _ (_ ++ _) = _
    rw [List.flatMap_append, TaggedText.flatMap_blanks fun _ => rfl,
      List.flatMap_map]
    exact congrArg (List.flatMap · tag.attributes ++ _)
      (funext SourceAttribute.written_toPart)
  show '<' :: (tag.name.text ++ (tag.braced.parts.flatMap
    BracedText.Part.written ++ tag.braced.ending)) = _
  unfold written body ending
  rw [hparts, List.append_assoc]
  rfl

/-- Converted, it is the tag of the page with its values in quotes. -/
theorem OpenTag.written_converted_braced (tag : OpenTag SourceAttribute) :
    (tag.braced.mapParts BracedText.Part.converted).written
      = (tag.map SourceAttribute.quoted).written Attribute.written := by
  have hparts : (tag.braced.parts.map BracedText.Part.converted).flatMap
        BracedText.Part.written
      = (tag.attributes.map SourceAttribute.quoted).flatMap Attribute.written
        ++ tag.tail.map Subtype.val := by
    have hattributes : ((tag.attributes.map SourceAttribute.toPart).map
          BracedText.Part.converted).flatMap BracedText.Part.written
        = (tag.attributes.map SourceAttribute.quoted).flatMap
          Attribute.written := by
      rw [List.map_map, List.flatMap_map, List.flatMap_map]
      exact congrArg (List.flatMap · tag.attributes)
        (funext SourceAttribute.written_converted)
    have htail : (tag.tail.map BracedText.Part.blank).map
        BracedText.Part.converted = tag.tail.map .blank := by
      rw [List.map_map]
      rfl
    show List.flatMap _ (List.map _ (_ ++ _)) = _
    rw [List.map_append, List.flatMap_append, hattributes, htail,
      TaggedText.flatMap_blanks fun _ => rfl]
  show '<' :: (tag.name.text ++ ((tag.braced.parts.map
    BracedText.Part.converted).flatMap BracedText.Part.written
      ++ tag.braced.ending)) = _
  unfold written body ending
  rw [hparts, List.append_assoc]
  rfl

/-- The tagged text is written as the page is. -/
theorem written_braced (page : Page SourceAttribute) :
    page.braced.written = page.written SourceAttribute.written := by
  unfold braced Tagged.written written
  rw [List.flatMap_map]
  refine congrArg (page.flatMap ·) (funext fun item => ?_)
  cases item with
  | text t => rfl
  | closing name => rfl
  | opening tag => exact tag.written_braced

/-- Converted, it is written as the page with its values in quotes. -/
theorem written_converted_braced (page : Page SourceAttribute) :
    page.braced.converted.written
      = (page.mapAttributes SourceAttribute.quoted).written
        Attribute.written := by
  unfold braced BracedText.converted Tagged.mapParts Tagged.written
    mapAttributes written
  rw [List.map_map, List.flatMap_map, List.flatMap_map]
  refine congrArg (page.flatMap ·) (funext fun item => ?_)
  cases item with
  | text t => rfl
  | closing name => rfl
  | opening tag => exact tag.written_converted_braced

/-- The rule for braces puts the values of a page in quotes. -/
theorem text_apply_braceAttributes_written (page : Page SourceAttribute) :
    (Rule.braceAttributes.apply (page.written SourceAttribute.written)).text
      = (page.mapAttributes SourceAttribute.quoted).written
        Attribute.written := by
  rw [← written_braced, ← written_converted_braced]
  exact page.braced.text_apply_braceAttributes

end ComponentMarkdown.Page
