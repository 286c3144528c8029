/-
Transforming over and over. The result of a pass need not be settled, so a
second pass may change it again, and a third; passes may lengthen the text,
and what is prose in one can be a fenced block in the next. They come to an
end all the same, since every substitution is paid for out of the supply of
the first text and nothing ever adds to it.

`supply_passes_le` is the account over any number of passes. A pass that
counts nothing repeats itself from then on, and before that each takes at
least one, so there are at most as many passes as the supply is large
(`exists_passes_settled`). `budget` says what the supply is in plain counts.
-/
import ComponentMarkdown.Proofs.Transformer.Changed
import Mathlib.Logic.Function.Iterate

namespace ComponentMarkdown

open Text

namespace Text

-- ========================================================== the budget

/-- How many slashes of a text do not stand directly behind `<`, where
`before` is what stands in front of the text. -/
def looseSlashes (before : Option Char) (t : Text) : Nat :=
  ((before :: t.map some).zip t).countP fun p =>
    p.2 == '/' && p.1 != some '<'

/-- The opening braces, the capitals and the slashes that are not those of
closing tags. -/
def budget (t : Text) : Nat :=
  t.count '{' + t.countP Char.isUpper + t.looseSlashes none

theorem looseSlashes_cons (before : Option Char) (c : Char) (t : Text) :
    looseSlashes before (c :: t)
      = looseSlashes (some c) t
        + (c == '/' && before != some '<').toNat := by
  unfold looseSlashes
  rw [List.map_cons, List.zip_cons_cons, List.countP_cons]
  cases c == '/' && before != some '<' <;> rfl

/-- A character is of at most one of the three sorts. -/
theorem usable_toNat (behind : Bool) (c : Char) :
    (usable behind c).toNat
      = (c == '{').toNat + c.isUpper.toNat
        + (c == '/' && !behind).toNat := by
  unfold usable
  by_cases hbrace : c = '{'
  · subst hbrace
    cases behind <;> rfl
  · rw [beq_false_of_ne hbrace]
    by_cases hslash : c = '/'
    · subst hslash
      cases behind <;> rfl
    · rw [beq_false_of_ne hslash]
      cases c.isUpper <;> rfl

/-- The supply of a text is a count of braces, capitals and slashes. -/
theorem supply_eq (before : Option Char) (t : Text) :
    supply (before == some '<') t
      = t.count '{' + t.countP Char.isUpper + t.looseSlashes before := by
  induction t generalizing before with
  | nil => rfl
  | cons c t ih =>
    have hnext : (c == '<') = (some c == some '<') := rfl
    rw [supply, hnext, ih, usable_toNat, looseSlashes_cons, List.count_cons,
      List.countP_cons, bne]
    cases c == '{' <;> cases c.isUpper <;>
      cases c == '/' && !(before == some '<') <;> simp <;> omega

/-- Of a whole document it is the budget. -/
theorem supply_eq_budget (t : Text) : supply false t = t.budget :=
  supply_eq none t

end Text

namespace Transformer

-- ========================================================== many passes

/-- The text after one pass. -/
def pass (t : Transformer) (source : Text) : Text :=
  (t.edit source).text?.getD source

/-- What so many passes count together, each over what the one before it
made. -/
def countedOver (t : Transformer) : Nat → Text → Nat
  | 0, _ => 0
  | n + 1, source =>
    (t.edit source).tally.total + t.countedOver n (t.pass source)

variable {t : Transformer}

/-- A text on which nothing is counted stays as it is. -/
theorem iterate_pass_of_total_eq_zero {source : Text}
    (h : (t.edit source).tally.total = 0) (n : Nat) :
    t.pass^[n] source = source := by
  have hpass : t.pass source = source := text?_edit_of_total_eq_zero t h
  exact Function.iterate_fixed hpass n

/-- Where an edit counts nothing, no rule finds anything in any stretch of
prose. -/
theorem count_apply_eq_zero_of_total_eq_zero {source : Text}
    (h : (t.edit source).tally.total = 0) {s : Segment}
    (hs : s ∈ Segment.ofDocument source) (hprose : s.kind = .prose)
    {rule : Rule} (hrule : rule ∈ t.pipeline.rules) :
    (rule.apply s.text).count = 0 := by
  rw [total_edit, List.sum_eq_zero_iff_forall_eq_nat, List.forall_mem_map]
    at h
  have hsegment := h s hs
  unfold segmentOutput at hsegment
  rw [hprose] at hsegment
  have hchanged : (t.pipeline.run s.text).changed = false := by
    unfold Pipeline.Output.changed
    rw [(Tally.total_eq_zero_iff _).1 hsegment]
    rfl
  exact (Pipeline.changed_run_eq_false_iff _ _).1 hchanged rule hrule

section

variable (ht : ∀ rule ∈ t.pipeline.rules, rule ∈ Registry.rules)

include ht

/-- Every pass is paid for by what the passes before it have left over. -/
theorem supply_passes_le (n : Nat) (source : Text) :
    supply false (t.pass^[n] source) + t.countedOver n source
      ≤ supply false source := by
  induction n generalizing source with
  | zero => exact Nat.le_refl _
  | succ n ih =>
    have hfirst := supply_edit_le ht source
    have hrest := ih (t.pass source)
    rw [Function.iterate_succ_apply, countedOver]
    unfold pass at hrest ⊢
    omega

/-- Some pass counts nothing, and no more come before it than the supply
allows for. -/
theorem exists_total_eq_zero (source : Text) :
    ∃ n ≤ supply false source,
      (t.edit (t.pass^[n] source)).tally.total = 0 := by
  induction hn : supply false source using Nat.strongRecOn
    generalizing source with
  | _ available ih =>
    by_cases htotal : (t.edit source).tally.total = 0
    · exact ⟨0, Nat.zero_le _, htotal⟩
    · have hpaid := supply_edit_le ht source
      have hless : supply false (t.pass source) < available := by
        unfold pass
        omega
      obtain ⟨n, hle, hzero⟩ := ih _ hless (t.pass source) rfl
      exact ⟨n + 1, by omega, hzero⟩

/-- Known rules, in whatever order and number, settle every document after
finitely many passes, no more of them than the budget. From then on no rule
counts anything in the prose and the passes leave the text alone. However
many passes there are, all they count is within the budget of the first
text. -/
theorem exists_passes_settled (source : Text) :
    (∃ n ≤ source.budget,
      (t.edit (t.pass^[n] source)).text? = none
        ∧ (∀ s ∈ Segment.ofDocument (t.pass^[n] source), s.kind = .prose →
          ∀ rule ∈ t.pipeline.rules, (rule.apply s.text).count = 0)
        ∧ ∀ m, t.pass^[m] (t.pass^[n] source) = t.pass^[n] source)
      ∧ ∀ m, t.countedOver m source ≤ source.budget := by
  rw [← supply_eq_budget]
  constructor
  · obtain ⟨n, hle, hzero⟩ := exists_total_eq_zero ht source
    refine ⟨n, hle, ?_, fun s hs hprose rule hrule => ?_, fun m => ?_⟩
    · rw [← Option.not_isSome_iff_eq_none, isSome_text?_edit_iff]
      exact fun hne => hne hzero
    · exact count_apply_eq_zero_of_total_eq_zero hzero hs hprose hrule
    · exact iterate_pass_of_total_eq_zero hzero m
  · intro m
    exact Nat.le_trans (Nat.le_add_left _ _) (supply_passes_le ht m source)

end

/-- A pipeline with a rule twice settles an iframe whose value ends in a
slash, as any document. -/
theorem exists_passes_settled_slash :
    (∀ rule ∈ [Rule.callouts, .iframeClosing, .callouts],
        rule ∈ Registry.rules)
      ∧ ∃ n ≤ 3,
        ((⟨".md", ⟨[.callouts, .iframeClosing, .callouts]⟩⟩ : Transformer).edit
          ((⟨".md", ⟨[.callouts, .iframeClosing, .callouts]⟩⟩
            : Transformer).pass^[n] "<iframe src=/x/ />".toList)).text?
          = none := by
  have hrules : ∀ rule ∈ [Rule.callouts, .iframeClosing, .callouts],
      rule ∈ Registry.rules := by
    simp [Registry.rules]
  have hbudget : Text.budget "<iframe src=/x/ />".toList = 3 := by decide
  obtain ⟨⟨n, hle, hnone, -⟩, -⟩ := exists_passes_settled
    (t := ⟨".md", ⟨[.callouts, .iframeClosing, .callouts]⟩⟩)
    hrules "<iframe src=/x/ />".toList
  exact ⟨hrules, n, hbudget ▸ hle, hnone⟩

/-- The first pass leaves a slash that the second takes for the end of the
tag; two passes count twice, within a budget of three. -/
example : standard.countedOver 2 "<iframe src=/x/ />".toList = 2 := by
  decide +kernel

end Transformer

end ComponentMarkdown
