/-
Settled documents: those that hold nothing the rules of a pipeline would
substitute. What that means is said for each rule in its own terms, by
what may be written in the prose of the document, and a transformer leaves
exactly the settled documents alone (`transform_eq_unchanged_iff`).
-/
import ComponentMarkdown.Proofs.Rule.AttributeCasing
import ComponentMarkdown.Proofs.Rule.BraceAttributes
import ComponentMarkdown.Proofs.Rule.Callouts
import ComponentMarkdown.Proofs.Rule.IframeClosing
import ComponentMarkdown.Proofs.Transformer.Reference

namespace ComponentMarkdown

open Markup

-- ====================================================== settled prose

/-- Prose in which the rules of a pipeline find nothing to substitute. -/
structure Pipeline.Settled (p : Pipeline) (s : Text) : Prop where
  /-- Outside the quoted values of opening tags, braces hold nothing but
  blanks. -/
  braces : Rule.braceAttributes ∈ p.rules →
    ∀ tag ∈ openingTagsOf s, ∀ r, Outside tag r →
    ∀ a : BraceAttribute, a.WellFormed → a.written <+: r →
    ∀ c ∈ a.value, isBlank c = true
  /-- No iframe closes itself. -/
  iframes : Rule.iframeClosing ∈ p.rules →
    ∀ r, r <:+ s → ¬ SelfClosingIframe.Heads r
  /-- Outside the quoted values of opening tags, no known attribute name
  stands in mixed case. -/
  names : Rule.attributeCasing ∈ p.rules →
    ∀ tag ∈ openingTagsOf s, ∀ r, Outside tag r → ¬ MixedCaseName.Heads r
  /-- Outside code spans, callouts are opened only with a class that
  cannot be merged. -/
  classes : Rule.callouts ∈ p.rules →
    ∀ tag ∈ calloutTagsOf s, tag.closing = false → tag.Unmergeable
  /-- Outside code spans and up to any point, callouts of each kind are
  closed at most as often as opened. -/
  pairs : Rule.callouts ∈ p.rules →
    ∀ k before, before <+: calloutTagsOf s →
    before.countP (CalloutTag.closes k) ≤ before.countP (CalloutTag.opens k)

/-- A pipeline of known rules leaves exactly the settled texts alone. -/
theorem Pipeline.changed_run_eq_false_iff_settled {p : Pipeline}
    (hp : ∀ rule ∈ p.rules, rule ∈ Registry.rules) (s : Text) :
    (p.run s).changed = false ↔ p.Settled s := by
  rw [changed_run_eq_false_iff]
  constructor
  · intro h
    refine ⟨fun hr => ?_, fun hr => ?_, fun hr => ?_, fun hr => ?_,
      fun hr => ?_⟩
    · exact count_apply_braceAttributes_eq_zero_iff.1 (h _ hr)
    · exact count_apply_iframeClosing_eq_zero_iff.1 (h _ hr)
    · exact count_apply_attributeCasing_eq_zero_iff.1 (h _ hr)
    · exact (count_apply_callouts_eq_zero_iff.1 (h _ hr)).1
    · exact (count_apply_callouts_eq_zero_iff.1 (h _ hr)).2
  · intro h rule hr
    rcases Registry.mem_rules_iff.1 (hp rule hr) with rfl | rfl | rfl | rfl
    · exact count_apply_braceAttributes_eq_zero_iff.2 (h.braces hr)
    · exact count_apply_iframeClosing_eq_zero_iff.2 (h.iframes hr)
    · exact count_apply_attributeCasing_eq_zero_iff.2 (h.names hr)
    · exact count_apply_callouts_eq_zero_iff.2 ⟨h.classes hr, h.pairs hr⟩

-- ================================================== settled documents

namespace Transformer

/-- A document whose prose is settled. -/
def Settled (t : Transformer) (document : Text) : Prop :=
  ∀ s ∈ Segment.ofDocument document, s.kind = .prose →
    t.pipeline.Settled s.text

/-- An edit gives no text of its own exactly if the document is settled. -/
theorem text?_edit_eq_none_iff {t : Transformer}
    (ht : ∀ rule ∈ t.pipeline.rules, rule ∈ Registry.rules)
    (source : Text) : (t.edit source).text? = none ↔ t.Settled source := by
  have hchanges := (follows_edit t source).changed
  rw [← Option.not_isSome_iff_eq_none, hchanges]
  unfold AnyChanges Settled
  constructor
  · intro h s hs hprose
    rw [← Pipeline.changed_run_eq_false_iff_settled ht, ← Bool.not_eq_true]
    intro hrun
    refine h ⟨s, hs, ?_⟩
    unfold segmentOutput
    rw [hprose]
    exact hrun
  · intro h hany
    obtain ⟨s, hs, hc⟩ := hany
    cases hk : s.kind with
    | verbatim =>
      unfold segmentOutput at hc
      rw [hk] at hc
      cases hc
    | prose =>
      have hsettled := h s hs hk
      rw [← Pipeline.changed_run_eq_false_iff_settled ht] at hsettled
      unfold segmentOutput at hc
      rw [hk] at hc
      rw [hsettled] at hc
      cases hc

/-- What a transformer reports of a document of its own. -/
theorem transform_of_eligible {t : Transformer} {id : String}
    (h : t.isEligible id = true) (source : Text) :
    t.transform source id
      = match (t.edit source).text? with
        | some text => .changed text (t.edit source).tally
        | none => .unchanged := by
  unfold transform
  exact if_pos h

/-- A change is reported exactly where an edit gives a text of its own. -/
theorem transform_eq_changed_iff {t : Transformer} {source text : Text}
    {id : String} {tally : Tally} :
    t.transform source id = .changed text tally
      ↔ t.isEligible id = true ∧ (t.edit source).text? = some text
        ∧ (t.edit source).tally = tally := by
  cases hid : t.isEligible id with
  | false =>
    unfold transform
    rw [hid]
    simp
  | true =>
    rw [transform_of_eligible hid]
    cases (t.edit source).text? with
    | none => simp
    | some text' => simp

/-- A transformer of known rules leaves a document alone exactly if it is
none of its documents or settled. -/
theorem transform_eq_unchanged_iff {t : Transformer}
    (ht : ∀ rule ∈ t.pipeline.rules, rule ∈ Registry.rules)
    (source : Text) (id : String) :
    t.transform source id = .unchanged
      ↔ (t.isEligible id = true → t.Settled source) := by
  rw [← text?_edit_eq_none_iff ht]
  cases hid : t.isEligible id with
  | false =>
    unfold transform
    rw [hid]
    simp
  | true =>
    rw [transform_of_eligible hid]
    cases (t.edit source).text? with
    | none => simp
    | some text => simp

end Transformer

end ComponentMarkdown
