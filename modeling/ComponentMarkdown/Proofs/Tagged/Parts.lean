/-
Tags, part by part. What the machine for opening tags takes at one is the tag
(`OpenTag.openingTag?_written`), so an edit of opening tags sees nothing else
(`Tagged.pieces_openingTags_written`). A scanner that looks for attributes
cuts a tag into what it makes of its parts, and characters
(`OpenTag.pieces_written`); so an edit that deals with the parts one by one
deals with those of a text one by one (`Tagged.text_editOpeningTags_written`).
-/
import ComponentMarkdown.Proofs.Rule.AttributeScanners
import ComponentMarkdown.Proofs.Splice.Tags
import ComponentMarkdown.Proofs.Tagged.Grammar

namespace ComponentMarkdown

open Markup

namespace TaggedText

variable {π ρ β : Type}

-- ============================================================== blanks

/-- Parts that are blanks are written as these. -/
theorem flatMap_blanks {write : π → Text} {part : Blank → π}
    (h : ∀ b, write (part b) = [b.val]) (blanks : List Blank) :
    (blanks.map part).flatMap write = blanks.map Subtype.val := by
  rw [List.flatMap_map, List.map_eq_flatMap]
  exact congrArg (blanks.flatMap ·) (funext h)

-- ======================================================== passing over

section

variable {sc : Scanner β} (hsc : sc.SeeksTags)

include hsc

/-- No tag starts in blanks, -/
theorem passesOver_blanks (blanks : List Blank) :
    sc.PassesOver (blanks.map Subtype.val) :=
  hsc.passesOver_of_class (f := isBlank) (by decide) isBlank_of_mem

/-- in the name of a tag, -/
theorem TagName.passesOver_text (n : TagName) : sc.PassesOver n.text :=
  hsc.passesOver_of_class (f := isTagNameChar) (by decide +kernel) n.nameChar

/-- or in a closing tag behind its `<`. -/
theorem CloseTag.passesOver_body (tag : CloseTag) :
    sc.PassesOver tag.body := by
  have hslash : sc.PassesOver ['/'] := hsc.passesOver (by decide)
  have hend : sc.PassesOver ['>'] := hsc.passesOver (by decide)
  exact hslash.append ((tag.name.passesOver_text hsc).append
    ((passesOver_blanks hsc tag.tail).append hend))

end

-- ======================================================= opening tags

/-- The machine for opening tags takes a tag through its end. -/
theorem OpenTag.openingTag?_written [TagPart π] {tag : OpenTag π}
    (hlead : ∀ part ∈ tag.parts.head?,
      ∃ c t, TagPart.written part = c :: t ∧ isBlank c = true) (s : Text) :
    openingTag? (tag.written ++ s) = some tag.written :=
  openingTag?_of_parts tag.name.first_alpha tag.name.rest_nameChar
    TagPart.leads hlead tag.slash s

/-- What the scanner for opening tags reads at an item. -/
def Item.openingTag? : Item π → Option Unit
  | .opening _ => some ()
  | _ => none

variable [LeadPart π]

/-- A text with tags is cut into its opening tags, and characters. -/
theorem pieces_openingTags_written (page : Tagged π) :
    openingTags.pieces page.written
      = page.flatMap fun item =>
        Scanner.whole item.written item.openingTag? := by
  induction page with
  | nil => exact openingTags.pieces_nil
  | cons item page ih =>
    rw [Tagged.written_cons, List.flatMap_cons, ← ih]
    cases item with
    | text t => exact seeksTags_openingTags.passesOver t.plain _
    | closing tag =>
      exact Scanner.pieces_tag
        (fun _ => tag.passesOver_body seeksTags_openingTags)
        (scan_openingTags_of_none rfl)
    | opening tag =>
      exact openingTags.pieces_append_of_hit (scan_openingTags_of_some
        (OpenTag.openingTag?_written
          (fun part _ => LeadPart.exists_lead part) _))

/-- An edit that deals with the parts of a tag one by one deals with those of
a text one by one. -/
theorem text_editOpeningTags_written [TagPart ρ] {edit : Text → Edited}
    {f : π → ρ}
    (hsame : ∀ tag, (edit tag).count = 0 → (edit tag).text = tag)
    (h : ∀ tag : OpenTag π, (edit tag.written).text = (tag.mapParts f).written)
    (page : Tagged π) :
    (editOpeningTags edit page.written).text
      = (page.mapParts f).written := by
  rw [text_editOpeningTags hsame, pieces_openingTags_written,
    List.flatMap_assoc]
  unfold Tagged.mapParts Tagged.written
  rw [List.flatMap_map]
  refine congrArg (page.flatMap ·) (funext fun item => ?_)
  cases item with
  | text t => exact editedPiece_chars _ _
  | closing tag => exact editedPiece_chars _ _
  | opening tag => exact (List.append_nil _).trans (h tag)

-- ======================================================= pieces of a tag

/-- A part may follow the name of an attribute. -/
theorem mayFollow_written (part : π) (s : Text) :
    MayFollow (TagPart.written part ++ s) := by
  obtain ⟨c, t, hpart, hc⟩ := LeadPart.exists_lead part
  rw [hpart]
  exact mayFollow_of_isBlank hc _

omit [LeadPart π] in
/-- So may the end of a tag. -/
theorem OpenTag.mayFollow_ending (tag : OpenTag π) (s : Text) :
    MayFollow (tag.ending ++ s) := by
  unfold ending
  cases tag.slash with
  | true =>
    intro c hc
    cases hc
    exact Or.inr (Or.inl rfl)
  | false =>
    intro c hc
    cases hc
    exact Or.inr (Or.inr rfl)

section

variable {sc : Scanner (Option β)} {scan : Text → Option (Hit β)}
  (hsc : PassesQuoted sc scan) (hstarts : StartsAttributes scan)
  {pieces : π → List (Piece (Option β))}
  (h : ∀ part s, MayFollow s →
    sc.pieces (TagPart.written part ++ s) = pieces part ++ sc.pieces s)

include hsc hstarts h

/-- A tag is cut into the pieces of its parts, and characters. -/
theorem OpenTag.pieces_written (tag : OpenTag π) :
    sc.pieces tag.written
      = ('<' :: tag.name.text).map .char
        ++ (tag.parts.flatMap pieces ++ tag.ending.map .char) := by
  have hname : ∀ c ∈ '<' :: tag.name.text,
      isBlank c = false ∧ isQuote c = false :=
    List.forall_mem_cons.2 ⟨by decide, fun c hc =>
      ⟨isBlank_of_isTagNameChar (tag.name.nameChar c hc),
        isQuote_of_isTagNameChar (tag.name.nameChar c hc)⟩⟩
  have hvisible : ∀ c ∈ tag.ending,
      isBlank c = false ∧ isQuote c = false := by
    unfold OpenTag.ending
    cases tag.slash <;> decide
  have hending := pieces_visible hsc hstarts hvisible []
  have hfollows := tag.mayFollow_ending []
  rw [List.append_nil] at hfollows hending
  rw [Scanner.pieces_nil, List.append_nil] at hending
  have hparts := sc.pieces_flatMap (P := MayFollow)
    (fun part s _ => mayFollow_written part s) h tag.parts hfollows
  have hwritten : tag.written = ('<' :: tag.name.text)
      ++ (tag.parts.flatMap TagPart.written ++ tag.ending) := rfl
  rw [hwritten, pieces_visible hsc hstarts hname, hparts, hending]

/-- A splice that turns each part into another one does so to the tag. -/
theorem OpenTag.text_splice_written [TagPart ρ]
    {edit : Hit (Option β) → Edited} {f : π → ρ}
    (hedit : ∀ part, (pieces part).flatMap (Scanner.splicedPiece edit)
      = TagPart.written (f part))
    (tag : OpenTag π) :
    (sc.splice edit tag.written).text = (tag.mapParts f).written := by
  have hparts : (tag.parts.flatMap pieces).flatMap
        (Scanner.splicedPiece edit)
      = (tag.parts.map f).flatMap TagPart.written := by
    rw [List.flatMap_assoc, List.flatMap_map]
    exact congrArg (tag.parts.flatMap ·) (funext hedit)
  rw [Scanner.text_splice, OpenTag.pieces_written hsc hstarts h,
    List.flatMap_append, List.flatMap_append, Scanner.splicedPiece_chars,
    Scanner.splicedPiece_chars, hparts]
  rfl

end

end TaggedText

end ComponentMarkdown
