/-
The rule for braces, on tagged text with values in braces. Within a tag the
scanner for attributes and the grammar keep step: an attribute without braces
is passed over, and one with braces is read as a whole, whatever its
expression holds (`Part.pieces_written`). So the rule puts in quotes exactly
the values that are not blank (`text_apply_braceAttributes`), counts them
(`count_apply_braceAttributes`), and has nothing to do in what it makes.
-/
import ComponentMarkdown.Proofs.BracedText.Grammar
import ComponentMarkdown.Proofs.TaggedText.InsideTags

namespace ComponentMarkdown

open Markup
open TaggedText (Attribute OpenTag)

namespace BraceAttribute

variable {a : BraceAttribute}

/-- What the rule puts in place of an attribute is the attribute with its
value in quotes. -/
theorem template?_eq_quoted? (ha : a.WellFormed) :
    a.template? = ha.quoted?.map Attribute.written := by
  have hwritten (bound : Bool) (value : Text) (hvalue : '"' ∉ value) :
      (ha.quotedAs bound value hvalue).written
        = a.lead :: ((if bound then [':'] else []) ++ a.name
          ++ '=' :: '"' :: (value ++ ['"'])) := by
    simp [WellFormed.quotedAs, Attribute.written, Attribute.head,
      Attribute.ending, TaggedText.Assigned.written,
      TaggedText.QuotedValue.written]
  unfold template? WellFormed.quoted?
  split
  · rename_i hblank
    rw [if_pos hblank]
    rfl
  · rename_i hvisible
    rw [if_neg hvisible]
    split <;> simp [hwritten]

end BraceAttribute

namespace BracedText

-- ============================================================ one tag

/-- What the scanner for attributes in braces makes of a part of a tag. -/
def Part.pieces : Part → List (Piece (Option BraceAttribute))
  | .blank b => [.char b.val]
  | .attr a => a.unread
  | .braced a _ => [.hit ⟨a.written, some a⟩]

/-- Whatever an expression holds, its attribute is read as a whole. -/
theorem Part.pieces_written (part : Part) (s : Text) (hs : MayFollow s) :
    BraceAttribute.scanner.pieces (part.written ++ s)
      = part.pieces ++ BraceAttribute.scanner.pieces s := by
  cases part with
  | blank b =>
    exact pieces_blanks BraceAttribute.passesQuoted_scanner
      startsAttributes_brace [b] (noName_of_mayFollow hs)
  | attr a => exact a.pieces_brace s hs
  | braced a ha =>
    refine BraceAttribute.scanner.pieces_append_of_hit ?_
    have hread : BraceAttribute.ofText? (a.written ++ s) = some a :=
      BraceAttribute.ofText?_written ha s
    have hquote : quoted? (a.written ++ s) = none :=
      quoted?_eq_none (isQuote_of_isBlank ha.lead) _
    show BraceAttribute.scanner.scan (a.written ++ s) = _
    rw [BraceAttribute.passesQuoted_scanner.of_unquoted hquote, hread]
    rfl

/-- The pieces of a part become the part with its value in quotes. -/
theorem Part.text_pieces (part : Part) :
    part.pieces.flatMap (Scanner.splicedPiece BraceAttribute.edit)
      = part.converted.written := by
  cases part with
  | blank b => rfl
  | attr a => exact a.text_unread fun _ => rfl
  | braced a ha =>
    rw [pieces, List.flatMap_singleton, Scanner.splicedPiece]
    have hspliced : Scanner.spliced BraceAttribute.edit ⟨a.written, some a⟩
        = a.template?.getD a.written :=
      Scanner.spliced_substitution
        (fun h : Hit (Option BraceAttribute) => h.value.bind _) _
    rw [hspliced, BraceAttribute.template?_eq_quoted? ha]
    show _ = Part.written ((ha.quoted?.map Part.attr).getD (.braced a ha))
    cases ha.quoted? <;> rfl

/-- A part is counted if it is put in quotes. -/
theorem Part.counted_pieces (part : Part) :
    Scanner.counted BraceAttribute.edit part.pieces
      = if part.isConverted then 1 else 0 := by
  cases part with
  | blank b => rfl
  | attr a => exact a.counted_unread fun _ => rfl
  | braced a ha =>
    show (Scanner.substitution _ a.template?).count + 0
      = if (!a.value.trim.isEmpty) = true then 1 else 0
    rw [BraceAttribute.template?_eq_quoted? ha]
    cases hquoted : ha.quoted? with
    | none =>
      rw [ha.quoted?_eq_none_iff.1 hquoted]
      rfl
    | some new =>
      have hvisible : a.value.trim ≠ [] := by
        rw [Ne, ← ha.quoted?_eq_none_iff, hquoted]
        exact Option.some_ne_none new
      simp [hvisible, Scanner.substitution]

/-- The rule puts the values of a tag in quotes that are not blank. -/
theorem text_convertTag_written (tag : OpenTag Part) :
    (BraceAttribute.convertTag tag.written).text
      = (tag.mapParts Part.converted).written :=
  OpenTag.text_splice_written BraceAttribute.passesQuoted_scanner
    startsAttributes_brace Part.pieces_written Part.text_pieces tag

/-- And it counts them. -/
theorem count_convertTag_written (tag : OpenTag Part) :
    (BraceAttribute.convertTag tag.written).count
      = tag.parts.countP Part.isConverted := by
  have hsum (parts : List Part) :
      (parts.map fun part =>
          Scanner.counted BraceAttribute.edit part.pieces).sum
        = parts.countP Part.isConverted := by
    induction parts with
    | nil => rfl
    | cons part parts ih =>
      rw [List.map_cons, List.sum_cons, ih, part.counted_pieces,
        List.countP_cons, Nat.add_comm]
  have hpieces := OpenTag.pieces_written BraceAttribute.passesQuoted_scanner
    startsAttributes_brace Part.pieces_written tag
  show (BraceAttribute.scanner.splice BraceAttribute.edit tag.written).count = _
  rw [Scanner.count_splice, hpieces, Scanner.counted_append,
    Scanner.counted_append, Scanner.counted_chars, Scanner.counted_chars,
    Scanner.counted_flatMap, hsum, Nat.zero_add, Nat.add_zero]

-- =========================================================== one text

/-- The rule puts the values in quotes that are not blank. -/
theorem text_apply_braceAttributes (page : BracedText) :
    (Rule.braceAttributes.apply page.written).text
      = page.converted.written :=
  TaggedText.text_editOpeningTags_written
    (fun _ => BraceAttribute.scanner.spliceFrom_text_of_count_zero _ () _)
    text_convertTag_written page

/-- And it counts them. -/
theorem count_apply_braceAttributes (page : BracedText) :
    (Rule.braceAttributes.apply page.written).count = page.conversions := by
  show (editOpeningTags BraceAttribute.convertTag page.written).count = _
  unfold editOpeningTags
  rw [Scanner.count_splice, TaggedText.pieces_openingTags_written,
    Scanner.counted_flatMap]
  unfold conversions
  refine congrArg List.sum (List.map_congr_left fun item _ => ?_)
  cases item with
  | text t => exact Scanner.counted_chars _ _
  | closing tag => exact Scanner.counted_chars _ _
  | opening tag => exact count_convertTag_written tag

end BracedText

/-- On tagged text with values in braces, the rule puts in quotes the values
that are not blank and keeps everything else; it counts them, and in what it
makes of the text there are none. -/
theorem converts_apply_braceAttributes (page : BracedText) :
    (Rule.braceAttributes.apply page.written).text = page.converted.written
      ∧ (Rule.braceAttributes.apply page.written).count = page.conversions
      ∧ (Rule.braceAttributes.apply
        (Rule.braceAttributes.apply page.written).text).count = 0 := by
  have htext := page.text_apply_braceAttributes
  refine ⟨htext, page.count_apply_braceAttributes, ?_⟩
  rw [htext, BracedText.count_apply_braceAttributes,
    BracedText.conversions_converted]

end ComponentMarkdown
