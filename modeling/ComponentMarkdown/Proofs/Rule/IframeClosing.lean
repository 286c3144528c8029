/-
Self-closing iframes, said as a grammar: `<iframe`, nothing or a blank and
attributes, and `/>`. The rule finds one wherever one is written
(`count_apply_iframeClosing_eq_zero_iff`).
-/
import ComponentMarkdown.Proofs.Markup.Attributes
import ComponentMarkdown.Proofs.Splice.Hits
import ComponentMarkdown.Rule.IframeClosing

namespace ComponentMarkdown

open Markup

namespace SelfClosingIframe

/-- Whether a self-closing iframe is written at the head of a text. -/
def Heads (s : Text) : Prop :=
  ∃ attributes after, s = opening ++ attributes ++ '/' :: '>' :: after
    ∧ AttributeText attributes ∧ ∀ c ∈ attributes.head?, isBlank c = true

/-- What is read is a self-closing iframe. -/
theorem heads_of_ofText? {s a : Text} {h : Hit Unit}
    (hs : ofText? s = some (a, h)) : Heads s := by
  unfold ofText? at hs
  split at hs
  · rename_i hp
    obtain ⟨rest, rfl⟩ := List.isPrefixOf_iff_prefix.1 hp
    rw [List.drop_left] at hs
    obtain ⟨ha, hlead, r, rfl, hstop⟩ := attributeText_of_attributes? hs
    obtain ⟨t, ht, -⟩ := Option.map_eq_some_iff.1 hstop
    obtain ⟨blanks, after, hblanks, rfl⟩ := selfClose?_eq_some ht
    refine ⟨a ++ blanks, after, by simp,
      ha.append (attributeText_of_blank hblanks), ?_⟩
    intro c hc
    cases a with
    | nil => exact hblanks c (List.mem_of_mem_head? hc)
    | cons d a => exact hlead c hc
  · cases hs

/-- Each self-closing iframe is read. -/
theorem isSome_ofText?_of_heads {s : Text} (h : Heads s) :
    (ofText? s).isSome = true := by
  obtain ⟨attributes, after, rfl, ha, hlead⟩ := h
  have hp : opening.isPrefixOf
      (opening ++ attributes ++ '/' :: '>' :: after) = true := by
    rw [List.isPrefixOf_iff_prefix, List.append_assoc]
    exact List.prefix_append _ _
  unfold ofText?
  rw [if_pos hp, List.append_assoc, List.drop_left]
  cases ha with
  | nil => rfl
  | @char c rest hopen hclose hquote hrest =>
    have hc : isBlank c = true := hlead c rfl
    rw [List.cons_append, attributes?, if_pos hc, Option.isSome_map]
    exact isSome_until_append hrest (by simp) rfl
  | @quoted q inner rest hquote hinner hrest =>
    have hq : isBlank q = true := hlead q rfl
    rw [isQuote_of_isBlank hq] at hquote
    cases hquote

/-- What the rule looks for is written at the head of a text exactly where
it recognises it. -/
theorem scan_eq_none_iff {s : Text} : scanner.scan s = none ↔ ¬ Heads s := by
  show (ofText? s).map _ = none ↔ _
  rw [Option.map_eq_none_iff]
  constructor
  · intro hnone hheads
    have hsome := isSome_ofText?_of_heads hheads
    rw [hnone] at hsome
    cases hsome
  · intro hheads
    cases hs : ofText? s with
    | none => rfl
    | some r => exact absurd (heads_of_ofText? hs) hheads

end SelfClosingIframe

/-- The rule counts nothing exactly if no self-closing iframe is written
anywhere in the text. -/
theorem count_apply_iframeClosing_eq_zero_iff {s : Text} :
    (Rule.iframeClosing.apply s).count = 0
      ↔ ∀ r, r <:+ s → ¬ SelfClosingIframe.Heads r := by
  show (SelfClosingIframe.scanner.replace _ s).count = 0 ↔ _
  rw [Scanner.count_replace_eq_zero_iff]
  simp only [← SelfClosingIframe.scan_eq_none_iff,
    ← Scanner.hits_eq_nil_iff, reduceCtorEq, imp_false]
  exact List.eq_nil_iff_forall_not_mem.symm

end ComponentMarkdown
