/-
A document that goes through a transformer again. A substitution can bring
into view what the first pass passed over: an unquoted value that ends in a
slash becomes the end of a tag, a tag named in a quoted value is found once
the tag around it has another name. So a second pass changes nothing exactly
if the first one left a settled document (`retransform_eq_unchanged_iff`).

Two conditions on the document and the rules see to that. Names change their
case without bringing anything into view, so where no other rule runs the
first pass always settles. And in a calm document there is nothing to bring
into view (`text?_edit_edit_of_calm`); the pages of `Page` are calm, so what
they are translated to stays (`transform_translated`).
-/
import ComponentMarkdown.Proofs.Transformer.Calm
import ComponentMarkdown.Proofs.Transformer.CasingOnly
import ComponentMarkdown.Proofs.Transformer.Changed

namespace ComponentMarkdown

open Markup

namespace Transformer

-- ====================================================== calm documents

section

variable {t : Transformer}
  (ht : ∀ rule ∈ t.pipeline.rules, rule ∈ Registry.rules)

include ht

/-- Where an edit gives the same text, it gives none of its own. -/
theorem text?_edit_eq_none_of_same {source : Text}
    (h : (t.edit source).text?.getD source = source) :
    (t.edit source).text? = none := by
  have hnone := (isSome_text?_edit_iff t source).not.2
    (not_not.2 ((total_edit_eq_zero_iff ht source).2 h))
  exact Option.not_isSome_iff_eq_none.1 hnone

/-- What an edit makes of a calm text, it leaves alone. -/
theorem text?_edit_edit_of_calm {page : BracedText}
    (h : page.Calm t.pipeline.rules) {text : Text}
    (htext : (t.edit page.written).text? = some text) :
    (t.edit text).text? = none := by
  obtain ⟨hwritten, hcalm⟩ :=
    TaggedText.foldl_apply_eq_written ht h.quoted
  have hfirst := text_edit_of_noFence ht (noFence_of_not_mem h.code h.fence)
  rw [htext, h.foldl_apply, hwritten] at hfirst
  have hsame := text_edit_of_noFence ht
    (noFence_of_not_mem hcalm.code hcalm.fence)
  rw [TaggedText.foldl_apply_of_settled ht hcalm fun rule hrule =>
    TaggedText.rewrite_foldl_rewrite ht hrule page.quoted] at hsame
  rw [← hfirst] at hsame
  exact text?_edit_eq_none_of_same ht hsame

end

-- ==================================================== the second pass

/-- Where a transformer of known rules changes a document, a second pass
leaves the result alone exactly if it is settled. It always does so if
attribute casing is the only rule, and whatever the rules are, if the
document is a calm one. -/
theorem retransform_eq_unchanged_iff {t : Transformer}
    (ht : ∀ rule ∈ t.pipeline.rules, rule ∈ Registry.rules)
    {source text : Text} {id : String} {tally : Tally}
    (h : t.transform source id = .changed text tally) :
    (t.transform text id = .unchanged ↔ t.Settled text)
      ∧ ((∀ rule ∈ t.pipeline.rules, rule = Rule.attributeCasing) →
        t.transform text id = .unchanged)
      ∧ ∀ page : BracedText, page.written = source →
        page.Calm t.pipeline.rules → t.transform text id = .unchanged := by
  obtain ⟨heligible, htext, -⟩ := transform_eq_changed_iff.1 h
  refine ⟨?_, fun hcasing => ?_, ?_⟩
  · rw [transform_eq_unchanged_iff ht]
    exact ⟨fun hs => hs heligible, fun hs _ => hs⟩
  · rw [transform_of_eligible heligible, text?_edit_edit t hcasing htext]
  · rintro page rfl hcalm
    rw [transform_of_eligible heligible,
      text?_edit_edit_of_calm ht hcalm htext]

/-- An iframe that closes itself. -/
def slashedIframe : BracedText :=
  [.opening {
    name := ⟨'i', "frame".toList, by decide, by decide +kernel⟩
    parts := [.blank ⟨' ', isBlank_space⟩]
    slash := true }]

/-- What `<iframe />` becomes is settled. -/
theorem settled_iframe :
    (∀ rule ∈ standard.pipeline.rules, rule ∈ Registry.rules)
      ∧ standard.transform "<iframe />".toList "a.md"
        = .changed "<iframe></iframe>".toList
          (standard.edit "<iframe />".toList).tally
      ∧ slashedIframe.written = "<iframe />".toList
      ∧ slashedIframe.Calm standard.pipeline.rules
      ∧ standard.Settled "<iframe></iframe>".toList := by
  have hrules : ∀ rule ∈ standard.pipeline.rules, rule ∈ Registry.rules :=
    fun _ h => h
  have hfirst : standard.transform "<iframe />".toList "a.md"
      = .changed "<iframe></iframe>".toList
        (standard.edit "<iframe />".toList).tally :=
    transform_eq_changed_iff.2
      ⟨by decide +kernel, by decide +kernel, rfl⟩
  have hwritten : slashedIframe.written = "<iframe />".toList := by
    decide +kernel
  have hcalm : slashedIframe.Calm standard.pipeline.rules := by
    refine ⟨by decide +kernel, by decide +kernel, fun part hpart t ht => ?_,
      fun part hpart hbraced => ?_⟩
    · cases List.mem_singleton.1 hpart
      cases ht
    · cases List.mem_singleton.1 hpart
      cases hbraced
  have hagain := retransform_eq_unchanged_iff hrules hfirst
  exact ⟨hrules, hfirst, hwritten, hcalm,
    hagain.1.1 (hagain.2.2 slashedIframe hwritten hcalm)⟩

/-- A second pass over `<iframe src=/x/ />` takes the slash of the value
for the end of the tag and closes the iframe again. -/
theorem retransform_slash :
    standard.transform "<iframe src=/x/ />".toList "a.md"
        = .changed "<iframe src=/x/></iframe>".toList
          (standard.edit "<iframe src=/x/ />".toList).tally
      ∧ standard.transform "<iframe src=/x/></iframe>".toList "a.md"
        = .changed "<iframe src=/x></iframe></iframe>".toList
          (standard.edit "<iframe src=/x/></iframe>".toList).tally := by
  constructor
  · exact transform_eq_changed_iff.2
      ⟨by decide +kernel, by decide +kernel, rfl⟩
  · exact transform_eq_changed_iff.2
      ⟨by decide +kernel, by decide +kernel, rfl⟩

-- ================================================================ pages

/-- What a page of tags is translated to stays as it is. -/
theorem transform_translated (page : Page Page.SourceAttribute) (id : String) :
    standard.transform page.translated id = .unchanged := by
  have hrules : ∀ rule ∈ standard.pipeline.rules, rule ∈ Registry.rules :=
    fun _ h => h
  have htext := text_edit_page page
  have hcalm := page.calm_braced
  rw [← page.written_braced] at htext
  rw [transform_eq_unchanged_iff hrules, ← text?_edit_eq_none_iff hrules]
  intro _
  cases hedit : (standard.edit page.braced.written).text? with
  | some text =>
    rw [hedit] at htext
    rw [← htext]
    exact text?_edit_edit_of_calm hrules hcalm hedit
  | none =>
    rw [hedit] at htext
    rw [← htext]
    exact hedit

end Transformer

end ComponentMarkdown
