/-
A document counts as changed exactly if its text is another one. What the
transformer reports rests on counters alone; no two texts are ever
compared. A substitution could put back what it found, or a rule could undo
what an earlier one did, and then a change would be reported that is none.

Neither happens, because every substitution uses something up: the supply
of the text drops by at least one for each that is counted, whatever the
rules and their order (`supply_edit_le`). A text that is equal to its
source has lost nothing, so nothing was counted.
-/
import ComponentMarkdown.Proofs.Rule.Supply
import ComponentMarkdown.Proofs.Transformer.Settled
import Mathlib.Algebra.GroupWithZero.Nat

namespace ComponentMarkdown

open Text

-- ======================================================= one pipeline

namespace Pipeline

/-- A run that counts nothing gives the text back. -/
theorem text_run_of_total_eq_zero {p : Pipeline} {s : Text}
    (h : (p.run s).tally.total = 0) : (p.run s).text = s := by
  have hchanged : (p.run s).changed = false := by
    unfold Output.changed
    rw [(Tally.total_eq_zero_iff _).1 h]
    rfl
  rw [run_of_changed_eq_false hchanged]

variable {p : Pipeline} (hp : ∀ rule ∈ p.rules, rule ∈ Registry.rules)

include hp

/-- Each substitution of a run uses something up. -/
theorem uses_run (s : Text) : Uses (p.run s).tally.total s (p.run s).text :=
  composes_uses.run_of_rules
    (fun rule hrule => Rule.uses_apply (hp rule hrule)) s

/-- A run of known rules counts nothing exactly if it gives the text
back. -/
theorem total_run_eq_zero_iff (s : Text) :
    (p.run s).tally.total = 0 ↔ (p.run s).text = s := by
  constructor
  · exact text_run_of_total_eq_zero
  · intro h
    have hle := (uses_run hp s false).1
    rw [h] at hle
    omega

end Pipeline

-- ========================================================= a document

namespace Transformer

variable (t : Transformer)

theorem total_foldl_merge (segments : List Segment) (before : Tally) :
    (segments.foldl (fun tally s => tally.merge (t.segmentOutput s).tally)
        before).total
      = before.total
        + (segments.map fun s => (t.segmentOutput s).tally.total).sum := by
  induction segments generalizing before with
  | nil => rfl
  | cons s segments ih =>
    rw [List.foldl_cons, ih, Tally.total_merge, List.map_cons, List.sum_cons,
      Nat.add_assoc]

/-- All that is counted over a document is counted in its segments. -/
theorem total_edit (source : Text) :
    (t.edit source).tally.total
      = ((Segment.ofDocument source).map
          fun s => (t.segmentOutput s).tally.total).sum := by
  unfold edit
  rw [Composes.tally_foldl_absorb, total_foldl_merge]
  exact Nat.zero_add _

/-- An edit has a text of its own exactly if something was counted. -/
theorem isSome_text?_edit_iff (source : Text) :
    (t.edit source).text?.isSome = true ↔ (t.edit source).tally.total ≠ 0 := by
  rw [(follows_edit t source).changed, total_edit]
  unfold AnyChanges Pipeline.Output.changed
  simp only [Bool.not_eq_true', ← Bool.not_eq_true, ← Tally.total_eq_zero_iff]
  rw [Ne, List.sum_eq_zero_iff_forall_eq_nat, List.forall_mem_map]
  simp

/-- An edit that counts nothing gives the document back. -/
theorem text?_edit_of_total_eq_zero {source : Text}
    (h : (t.edit source).tally.total = 0) :
    (t.edit source).text?.getD source = source := by
  have hnone : ¬ (t.edit source).text?.isSome = true := by
    rw [isSome_text?_edit_iff]
    exact fun hne => hne h
  rw [Option.not_isSome_iff_eq_none.1 hnone]
  rfl

section

variable {t}
  (ht : ∀ rule ∈ t.pipeline.rules, rule ∈ Registry.rules)

include ht

/-- All that is counted over a document was paid for by it. -/
theorem supply_edit_le (source : Text) :
    supply false ((t.edit source).text?.getD source)
        + (t.edit source).tally.total
      ≤ supply false source :=
  (composes_uses.edit t (fun s _ _ => Pipeline.uses_run ht s.text) false).1

/-- An edit of known rules counts nothing exactly if it gives the document
back. -/
theorem total_edit_eq_zero_iff (source : Text) :
    (t.edit source).tally.total = 0
      ↔ (t.edit source).text?.getD source = source := by
  constructor
  · exact text?_edit_of_total_eq_zero t
  · intro h
    have hle := supply_edit_le ht source
    rw [h] at hle
    omega

/-- A document that is reported as changed gets another text. -/
theorem ne_of_transform_eq_changed {source text : Text} {id : String}
    {tally : Tally} (h : t.transform source id = .changed text tally) :
    text ≠ source := by
  obtain ⟨-, htext, -⟩ := transform_eq_changed_iff.1 h
  have hsome : (t.edit source).text?.isSome = true := by
    rw [htext]
    rfl
  have hne := mt (total_edit_eq_zero_iff ht source).2
    ((isSome_text?_edit_iff t source).1 hsome)
  rw [htext] at hne
  exact hne

/-- Whatever known rules there are, in whatever order and number, a document
is reported as changed exactly if it is one of the transformer's documents
and the edit makes another text of it; the text reported is then that other
text. Over a document as over any stretch of text, what is counted is zero
exactly if the text comes back as it was. -/
theorem exists_transform_eq_changed_iff (source : Text) (id : String) :
    ((∃ text tally, t.transform source id = .changed text tally)
        ↔ t.isEligible id = true
          ∧ (t.edit source).text?.getD source ≠ source)
      ∧ (∀ text tally, t.transform source id = .changed text tally →
        text = (t.edit source).text?.getD source ∧ text ≠ source
          ∧ tally = (t.edit source).tally ∧ tally.total ≠ 0)
      ∧ ((t.edit source).tally.total = 0
        ↔ (t.edit source).text?.getD source = source)
      ∧ ∀ s : Text,
        (t.pipeline.run s).tally.total = 0 ↔ (t.pipeline.run s).text = s := by
  have hedit := total_edit_eq_zero_iff ht source
  refine ⟨?_, ?_, hedit, Pipeline.total_run_eq_zero_iff ht⟩
  · rw [Ne, ← hedit, ← Ne, ← isSome_text?_edit_iff, Option.isSome_iff_exists]
    simp only [transform_eq_changed_iff]
    simp
  · intro text tally h
    obtain ⟨-, htext, rfl⟩ := transform_eq_changed_iff.1 h
    have hsome : (t.edit source).text?.isSome = true := by
      rw [htext]
      rfl
    have htotal := (isSome_text?_edit_iff t source).1 hsome
    have hne := mt hedit.2 htotal
    rw [htext] at hne ⊢
    exact ⟨rfl, hne, rfl, htotal⟩

end

/-- Two rules in turn, one of them twice, on a tag that both have something
to do with. -/
theorem changed_casing_twice :
    (∀ rule ∈ [Rule.attributeCasing, .braceAttributes, .attributeCasing],
        rule ∈ Registry.rules)
      ∧ ∃ text tally,
        (⟨".md", ⟨[.attributeCasing, .braceAttributes, .attributeCasing]⟩⟩
          : Transformer).transform "<a frameBorder={1}>".toList "a.md"
          = .changed text tally := by
  have hrules : ∀ rule ∈ [Rule.attributeCasing, .braceAttributes,
      .attributeCasing], rule ∈ Registry.rules := by
    simp [Registry.rules]
  refine ⟨hrules, ?_⟩
  refine (exists_transform_eq_changed_iff
    (t := ⟨".md", ⟨[.attributeCasing, .braceAttributes, .attributeCasing]⟩⟩)
    hrules "<a frameBorder={1}>".toList "a.md").1.2 ⟨by decide +kernel, ?_⟩
  decide +kernel

end Transformer

end ComponentMarkdown
