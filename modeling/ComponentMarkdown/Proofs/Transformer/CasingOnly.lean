/-
Transformers whose one rule is attribute casing. The rule changes nothing
but the case of letters, so the new document is cut into segments where
the old one was (`Segment.ofDocument_of_case`), and each of its segments
is one the rule leaves alone: what such a transformer makes of a document
it does not change again (`text?_edit_edit`).
-/
import ComponentMarkdown.Proofs.Rule.LoweredNames
import ComponentMarkdown.Proofs.Segment.Case
import ComponentMarkdown.Proofs.Transformer.Reference

namespace ComponentMarkdown

open Text

-- ========================================================== pipelines

namespace Pipeline

/-- A pipeline that only lowers attribute names. -/
def CasingOnly (p : Pipeline) : Prop :=
  ∀ rule ∈ p.rules, rule = Rule.attributeCasing

/-- Taking in the rule leaves the lowered text, whether it counts
something or not. -/
theorem text_absorb_attributeCasing (before : Output) :
    (before.absorb Rule.attributeCasing
      (Rule.attributeCasing.apply before.text)).text
      = MixedCaseName.lowerNames before.text := by
  unfold Output.absorb
  split
  · rename_i hzero
    exact (MixedCaseName.lowerNames_of_count_zero hzero).symm
  · rfl

/-- The first rule lowers all names, and the others find none. -/
theorem text_run_of_casingOnly {p : Pipeline} (hp : p.CasingOnly)
    (s : Text) :
    (p.run s).text
      = if p.rules = [] then s else MixedCaseName.lowerNames s := by
  obtain ⟨rules⟩ := p
  cases rules with
  | nil => rfl
  | cons rule rules =>
    obtain ⟨rfl, hrules⟩ := List.forall_mem_cons.1 hp
    have htext := text_absorb_attributeCasing ⟨s, .empty⟩
    rw [if_neg (List.cons_ne_nil _ _), run_eq_resume, resume_cons,
      resume_of_zero, htext]
    intro rule hrule
    rw [hrules rule hrule, htext]
    exact MixedCaseName.count_apply_lowerNames s

/-- A run that only changes case leaves the text as it is in small letters. -/
theorem asciiLower_run_of_casingOnly {p : Pipeline} (hp : p.CasingOnly)
    (s : Text) : asciiLower (p.run s).text = asciiLower s := by
  rw [text_run_of_casingOnly hp]
  split
  · rfl
  · exact MixedCaseName.asciiLower_lowerNames s

/-- And there is nothing left for a second run. -/
theorem changed_run_run_of_casingOnly {p : Pipeline} (hp : p.CasingOnly)
    (s : Text) : (p.run (p.run s).text).changed = false := by
  rw [changed_run_eq_false_iff]
  intro rule hrule
  have hne : p.rules ≠ [] := List.ne_nil_of_mem hrule
  rw [hp rule hrule, text_run_of_casingOnly hp, if_neg hne]
  exact MixedCaseName.count_apply_lowerNames s

end Pipeline

-- ========================================================== documents

namespace Transformer

variable (t : Transformer)

/-- Where an edit gives a text of its own, it is that of the segments. -/
theorem text_edit_of_some {source text : Text}
    (h : (t.edit source).text? = some text) :
    text = (Segment.ofDocument source).flatMap
      fun s => (t.segmentOutput s).text := by
  have htext := t.text_edit source
  rw [h] at htext
  exact htext

theorem asciiLower_segmentOutput (ht : t.pipeline.CasingOnly)
    (s : Segment) : asciiLower (t.segmentOutput s).text = asciiLower s.text := by
  unfold segmentOutput
  cases s.kind with
  | verbatim => rfl
  | prose => exact Pipeline.asciiLower_run_of_casingOnly ht s.text

/-- A segment changed once is not changed again. -/
theorem changed_segmentOutput_segmentOutput (ht : t.pipeline.CasingOnly)
    (s : Segment) :
    (t.segmentOutput { s with text := (t.segmentOutput s).text }).changed
      = false := by
  unfold segmentOutput
  cases s.kind with
  | verbatim => rfl
  | prose => exact Pipeline.changed_run_run_of_casingOnly ht s.text

/-- What such a transformer makes of a document stays as it is. -/
theorem text?_edit_edit (ht : t.pipeline.CasingOnly) {source text : Text}
    (h : (t.edit source).text? = some text) : (t.edit text).text? = none := by
  have hcut : Segment.ofDocument text
      = (Segment.ofDocument source).map
        fun s => { s with text := (t.segmentOutput s).text } := by
    rw [text_edit_of_some t h]
    exact Segment.ofDocument_of_case source (asciiLower_segmentOutput t ht)
  rw [← Option.not_isSome_iff_eq_none, (follows_edit t text).changed, hcut]
  intro hany
  obtain ⟨s', hs', hchanged⟩ := hany
  obtain ⟨s, -, rfl⟩ := List.mem_map.1 hs'
  rw [changed_segmentOutput_segmentOutput t ht s] at hchanged
  cases hchanged

end Transformer

end ComponentMarkdown
