/-
What an edit makes of a page of tags: exactly its translation, tag by tag
(`text_edit_page`). A page holds no mark of a fence or a code span, so all
of it is prose; the rules run over it one after the other, and each finds a
page again, with the tags and attributes that the rule before it left.
-/
import ComponentMarkdown.Proofs.Page.BraceAttributes
import ComponentMarkdown.Proofs.Page.Callouts
import ComponentMarkdown.Proofs.Segment.NoFence
import ComponentMarkdown.Proofs.Transformer.Reference

namespace ComponentMarkdown

-- ================================================================ rules

/-- A known rule that counts nothing leaves the text alone. -/
theorem Rule.text_apply_of_count_zero {rule : Rule}
    (h : rule ∈ Registry.rules) {s : Text} (hcount : (rule.apply s).count = 0) :
    (rule.apply s).text = s := by
  rcases Registry.mem_rules_iff.1 h with rfl | rfl | rfl | rfl
  · exact Markup.openingTags.spliceFrom_text_of_count_zero _ () s hcount
  · exact SelfClosingIframe.scanner.spliceFrom_text_of_count_zero _ () s hcount
  · exact MixedCaseName.lowerNames_of_count_zero hcount
  · exact text_apply_callouts_of_count_zero hcount

/-- A known rule makes nothing of nothing. -/
theorem Rule.text_apply_nil {rule : Rule} (h : rule ∈ Registry.rules) :
    (rule.apply []).text = [] := by
  rcases Registry.mem_rules_iff.1 h with rfl | rfl | rfl | rfl
  all_goals decide +kernel

namespace Transformer

/-- A text without fences goes through one rule after the other. -/
theorem text_edit_of_noFence {t : Transformer}
    (ht : ∀ rule ∈ t.pipeline.rules, rule ∈ Registry.rules) {s : Text}
    (h : NoFence [] s) :
    (t.edit s).text?.getD s
      = t.pipeline.rules.foldl (fun t rule => (rule.apply t).text) s := by
  have hrun : (t.pipeline.run s).text
      = t.pipeline.rules.foldl (fun t rule => (rule.apply t).text) s :=
    Pipeline.text_resume
      (fun rule hrule _ => Rule.text_apply_of_count_zero (ht rule hrule)) _
  rw [text_edit]
  by_cases hne : s = []
  · -- the empty document has no segments, and no rule adds to it
    have hempty : ∀ rules : List Rule, (∀ rule ∈ rules, rule ∈ Registry.rules) →
        rules.foldl (fun t rule => (rule.apply t).text) [] = [] := by
      intro rules hrules
      induction rules with
      | nil => rfl
      | cons rule rules ih =>
        obtain ⟨hrule, hrules⟩ := List.forall_mem_cons.1 hrules
        rw [List.foldl_cons, Rule.text_apply_nil hrule]
        exact ih hrules
    have hnil : Segment.ofDocument [] = [] := by decide +kernel
    rw [hne, hempty _ ht, hnil]
    rfl
  · rw [← hrun, Segment.ofDocument_of_noFence hne h]
    exact List.append_nil _

/-- Without backticks and tildes there is no fence. -/
theorem noFence_of_not_mem {s : Text} (hcode : '\x60' ∉ s)
    (hfence : '~' ∉ s) : NoFence [] s := by
  rw [NoFence.iff_lines List.not_mem_nil, List.nil_append]
  intro line hline fence
  have hsub (c : Char) (hc : c ∈ line) : c ∈ s := by
    rw [← Text.lines_flatten s]
    exact List.mem_flatten.2 ⟨line, hline, hc⟩
  exact Fence.not_opens_of_not_mem (fun h => hcode (hsub _ h))
    (fun h => hfence (hsub _ h)) fence

-- ================================================================ pages

open Page

/-- No line of a page opens a fence. -/
theorem noFence_written (page : Page SourceAttribute) :
    NoFence [] (page.written SourceAttribute.written) := by
  have hmarks := page.plain_written SourceAttribute.plain_written
  exact noFence_of_not_mem (fun h => (hmarks _ h).1 rfl)
    (fun h => (hmarks _ h).2 rfl)

/-- An edit makes of a page its translation. -/
theorem text_edit_page (page : Page SourceAttribute) :
    (standard.edit (page.written SourceAttribute.written)).text?.getD
        (page.written SourceAttribute.written)
      = page.translated := by
  have hrules : standard.pipeline.rules = Registry.rules := rfl
  rw [text_edit_of_noFence (fun _ h => h) (noFence_written page), hrules,
    Registry.rules, List.foldl_cons, List.foldl_cons, List.foldl_cons,
    List.foldl_cons, List.foldl_nil, text_apply_braceAttributes_written,
    text_apply_iframeClosing_written, text_apply_attributeCasing_written,
    text_apply_callouts_written]
  rfl

/-- A callout with an attribute that two rules rewrite. -/
example :
    let note : TagName := ⟨'N', "ote".toList, by decide, by decide⟩
    let border : BracedAttribute := {
      lead := ⟨' ', by decide⟩
      name := ⟨'f', "rameBorder".toList, by decide, by decide⟩
      value := " 2 ".toList
      plain := by decide
      value_char := by decide
      visible := by decide }
    let page : Page SourceAttribute :=
      [.opening ⟨note, [.braced border], [], false⟩, .closing note]
    page.written SourceAttribute.written
        = "<Note frameBorder=\x7b 2 \x7d></Note>".toList
      ∧ page.translated = "<div class=\"callout callout-note\"".toList
        ++ " frameborder=\"2\"></div>".toList := by
  decide +kernel

end Transformer

end ComponentMarkdown
