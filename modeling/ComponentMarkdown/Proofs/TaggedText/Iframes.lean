/-
Self-closing iframes of tagged text. The rule takes each of them, and no
other tag, whatever its name starts with (`OpenTag.scan_iframe`), and puts an
opening and a closing tag in its place. Within quoted values it may find an
iframe too; where it finds none, the text is what it becomes part by part
(`text_apply_iframeClosing_tagged`).
-/
import ComponentMarkdown.Proofs.TaggedText.TagEnds

namespace ComponentMarkdown.TaggedText

open Markup

namespace OpenTag

/-- What the rule for iframes reads off a tag. -/
def closedIframe? (tag : OpenTag Part) : Option Text :=
  if tag.isClosedIframe then some tag.attributeText else none

/-- The rule takes self-closing iframes, and no other tag. -/
theorem scan_iframe (tag : OpenTag Part) (s : Text) :
    SelfClosingIframe.scanner.scan (tag.written ++ s)
      = tag.closedIframe?.map (⟨tag.written, ·⟩) := by
  have hstop := seesEnds_selfClose ()
  have hopening : SelfClosingIframe.opening = '<' :: "iframe".toList := by
    decide
  have hwritten : tag.written ++ s = '<' :: (tag.name.text
      ++ (tag.parts.flatMap Part.written ++ (tag.ending ++ s))) := by
    simp [written, body]
  show (SelfClosingIframe.ofText? _).map _ = _
  unfold closedIframe? isClosedIframe
  rw [hwritten, SelfClosingIframe.ofText?_name nameClass_isTagNameChar
    tag.name.nameChar (tag.isTagNameChar_behind s), hopening]
  by_cases hname : tag.name.text = "iframe".toList
  · rw [if_pos hname, beq_iff_eq.2 hname, Bool.true_and]
    cases hslash : tag.slash with
    | true =>
      obtain ⟨ending, hending, hread⟩ := attributes?_slash hstop hslash s
      have htag : tag.written = '<' :: "iframe".toList ++ tag.attributeText
          ++ ending := by
        rw [List.append_assoc, hending, ← hname]
        rfl
      rw [hread, if_pos rfl, htag]
      rfl
    | false =>
      rw [attributes?_open hstop hslash, if_neg Bool.false_ne_true]
      rfl
  · rw [if_neg hname, beq_eq_false_iff_ne.2 hname]
    rfl

/-- What stands for a self-closing iframe are an opening and a closing
tag. -/
theorem expanded_attributeText {tag : OpenTag Part}
    (h : tag.isClosedIframe = true) :
    SelfClosingIframe.expanded tag.attributeText
      = { tag with parts := trimmed tag.parts, slash := false }.written
        ++ (CloseTag.mk tag.name []).written := by
  have hname : tag.name.text = "iframe".toList :=
    beq_iff_eq.1 (Bool.and_eq_true_iff.1 h).1
  have hopening : SelfClosingIframe.opening = '<' :: "iframe".toList := by
    decide
  have hclosing : "></iframe>".toList
      = '>' :: '<' :: '/' :: ("iframe".toList ++ ['>']) := by decide
  unfold SelfClosingIframe.expanded written body ending CloseTag.written
    CloseTag.body
  rw [tag.trimEnd_attributeText, hname, hopening, hclosing]
  simp

end OpenTag

/-- What the rule reads at an item. -/
def Item.closedIframe? : Item Part → Option Text
  | .opening tag => tag.closedIframe?
  | _ => none

/-- The rule for iframes closes the self-closing ones of tagged text, if it
reads nothing within the quoted values of other tags. -/
theorem text_apply_iframeClosing_tagged {page : TaggedText}
    (h : ∀ tag, .opening tag ∈ page → tag.isClosedIframe = false →
      ∀ v ∈ tag.values, v.UnreadBy SelfClosingIframe.scanner) :
    (Rule.iframeClosing.apply page.written).text = page.closed.written := by
  have hopening : SelfClosingIframe.opening = '<' :: 'i' :: "frame".toList :=
    by decide
  have hpieces : SelfClosingIframe.scanner.pieces page.written
      = page.flatMap (Item.pieces Item.closedIframe?) := by
    refine pieces_written SelfClosingIframe.seeksTags_scanner (fun _ => rfl)
      (fun tag s => ?_) OpenTag.scan_iframe (fun tag htag hnone =>
        h tag htag ?_)
    · refine SelfClosingIframe.scan_of_not_isPrefix fun hprefix => ?_
      rw [hopening, CloseTag.written, CloseTag.body, List.cons_append,
        List.cons_append, List.cons_prefix_cons, List.cons_prefix_cons]
        at hprefix
      exact absurd hprefix.2.1 (by decide)
    · rw [← Bool.not_eq_true]
      intro hiframe
      unfold Item.closedIframe? OpenTag.closedIframe? at hnone
      dsimp only at hnone
      rw [if_pos hiframe] at hnone
      cases hnone
  show (SelfClosingIframe.scanner.replace _ _).text = _
  unfold Scanner.replace
  rw [Scanner.text_splice, hpieces, List.flatMap_assoc]
  unfold closed Tagged.written
  rw [List.flatMap_assoc]
  refine congrArg (page.flatMap ·) (funext fun item => ?_)
  unfold Item.pieces
  cases item with
  | text t =>
    exact (Scanner.splicedPiece_chars _ _).trans (List.append_nil _).symm
  | closing tag =>
    exact (Scanner.splicedPiece_chars _ _).trans (List.append_nil _).symm
  | opening tag =>
    unfold Item.closedIframe? OpenTag.closedIframe? Item.closed
    dsimp only
    split
    · rename_i hiframe
      rw [Scanner.whole, List.flatMap_singleton, Scanner.splicedPiece,
        Scanner.spliced_substitution, Option.getD_some,
        OpenTag.expanded_attributeText hiframe, List.flatMap_cons,
        List.flatMap_singleton]
      rfl
    · exact (Scanner.splicedPiece_chars _ _).trans (List.append_nil _).symm

end ComponentMarkdown.TaggedText
