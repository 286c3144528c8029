/-
What rules write. A substitution puts in what it takes out and characters
that are always the same (`inserted`): those of the tags it writes and of
names in small letters. A character that is none of these, such as a return
or a backtick, is in the text a rule makes only if it was there before
(`Rule.lacks_apply`).
-/
import ComponentMarkdown.Proofs.Rule.Fences

namespace ComponentMarkdown

open Markup

-- ========================================================== characters

/-- The characters that rules write. -/
def inserted : Text :=
  "=:\"></iframe><div class=\"callout ".toList
    ++ (MixedCaseName.known.flatMap Text.asciiLower
      ++ CalloutKind.all.flatMap CalloutKind.className)

/-- A text without a character is made into one without it. -/
def Lacks (c : Char) (_ : Nat) (old new : Text) : Prop := c ∉ old → c ∉ new

theorem composes_lacks (c : Char) : Composes (Lacks c) where
  refl _ := id
  append {_ _ a a' b b'} ha hb h := by
    rw [List.mem_append, not_or] at h ⊢
    exact ⟨ha h.1, hb h.2⟩
  trans hab hbc h := hbc (hab h)

/-- Trimming adds no character. -/
theorem mem_of_mem_trimEnd {t : Text} {c : Char} (h : c ∈ t.trimEnd) :
    c ∈ t := by
  obtain ⟨blanks, -, ht⟩ := Text.exists_trimEnd_append t
  rw [ht]
  exact List.mem_append_left _ h

section

variable {c : Char} (hc : c ∉ inserted)

include hc

/-- Of a text that is written, the character is in what was there. -/
theorem mem_of_inserted (fixed : Text) (hfixed : ∀ d ∈ fixed, d ∈ inserted)
    {p : Prop} (h : c ∈ fixed ∨ p) : p :=
  h.resolve_left fun hmem => hc (hfixed c hmem)

-- =============================================================== rules

/-- The template of an attribute brings no such character. -/
theorem BraceAttribute.lacks_template {a : BraceAttribute} {new : Text}
    (hnew : a.template? = some new) : Lacks c 1 a.written new := by
  intro hold hmem
  have hall : ∀ d ∈ ['=', '"', ':'], d ∈ inserted := by decide
  have hnot : c ∉ ['=', '"', ':'] := fun h => hc (hall c h)
  simp only [List.mem_cons, List.not_mem_nil, or_false, not_or] at hnot
  obtain ⟨hequals, hquote, hcolon⟩ := hnot
  have hparts : c = a.lead ∨ c ∈ a.name ∨ c ∈ a.value := by
    rcases template?_cases hnew with rfl | rfl
    · simp [hequals, hquote] at hmem
      exact hmem.imp_right (Or.imp_right Text.mem_of_mem_trim)
    · simp [hequals, hquote, hcolon] at hmem
      exact hmem
  refine hold ?_
  rcases hparts with rfl | hname | hvalue
  · exact List.mem_append_left _ List.mem_cons_self
  · simp [written, hname]
  · simp [written, hvalue]

/-- Nor does a lowered name. -/
theorem MixedCaseName.lacks_lowered {m : MixedCaseName}
    (hname : m.name ∈ known) : Lacks c 1 (m.lead ++ m.name) m.lowered := by
  intro hold hmem
  have hlower : ∀ name ∈ known, ∀ d ∈ name.asciiLower, d ∈ inserted := by
    decide
  have hlead := mem_of_inserted hc _ (hlower m.name hname)
    (List.mem_append.1 hmem).symm
  exact hold (List.mem_append_left _ hlead)

/-- Nor does an iframe that is closed. -/
theorem SelfClosingIframe.lacks_expanded {attributes ending : Text} :
    Lacks c 1 (opening ++ attributes ++ ending) (expanded attributes) := by
  intro hold hmem
  unfold expanded at hmem
  rw [List.mem_append, List.mem_append] at hmem
  have hattributes := mem_of_inserted hc opening (by decide)
    (mem_of_inserted hc "></iframe>".toList (by decide) hmem.symm)
  exact hold (List.mem_append_left _
    (List.mem_append_right _ (mem_of_mem_trimEnd hattributes)))

namespace CalloutTag

/-- The characters of a container that are not inserted are those of the tag.
-/
theorem mem_of_container {k : CalloutKind} {classes others : Text}
    (h : c ∈ k.container classes others) : c ∈ classes ∨ c ∈ others := by
  have hname : ∀ d ∈ "<div class=\"callout ".toList ++ k.className,
      d ∈ inserted := by
    cases k <;> decide
  have hadded : c ∈ addedClasses classes → c ∈ classes := by
    unfold addedClasses
    intro hmem
    split at hmem
    · cases hmem
    · refine Text.mem_of_mem_trim (mem_of_inserted hc [' '] (by decide) ?_)
      rw [List.mem_singleton]
      exact List.mem_cons.1 hmem
  have hmarks : ∀ d ∈ ['"', '>'], d ∈ inserted := by decide
  have hnot : c ∉ ['"', '>'] := fun hmem => hc (hmarks c hmem)
  simp only [List.mem_cons, List.not_mem_nil, or_false, not_or] at hnot
  unfold CalloutKind.container at h
  rw [List.mem_append, List.mem_append, List.mem_append, List.mem_cons,
    List.mem_singleton, or_iff_left hnot.2, or_iff_right hnot.1] at h
  rcases h with (h | h) | h
  · exact absurd h fun hmem => hc (hname c hmem)
  · exact Or.inl (hadded h)
  · exact Or.inr h

/-- Nor does what a callout tag becomes. -/
theorem lacks_convert? {tag : CalloutTag} {ending new : Text}
    {opened : OpenCallouts} (hnew : (tag.convert? opened).1 = some new) :
    Lacks c 1 (tag.written ending) new := by
  intro hold hmem
  have hend : ∀ d ∈ containerEnd, d ∈ inserted := by decide
  rcases convert?_eq_some hnew with
    ⟨-, -, -, rfl⟩ | ⟨-, container, hcontainer, rfl⟩
  · exact hc (hend c hmem)
  · have hcontainerMem : c ∈ container := by
      refine mem_of_inserted hc
        (if tag.selfClosing then containerEnd else []) ?_
        (List.mem_append.1 hmem).symm
      cases tag.selfClosing with
      | true => exact hend
      | false => exact nofun
    obtain ⟨classes, others, hmerges, rfl⟩ := container?_eq_some hcontainer
    have hattributes := mem_of_mem_trimEnd
      (mem_of_merges hmerges (mem_of_container hc hcontainerMem))
    refine hold ?_
    unfold written
    exact List.mem_append_left _ (List.mem_append_right _ hattributes)

end CalloutTag

/-- No rule brings in a character other than those it writes. -/
theorem Rule.lacks_apply {rule : Rule} (h : rule ∈ Registry.rules)
    (s : Text) : (rule.apply s).Follows (Lacks c) s := by
  have hR := composes_lacks c
  rcases Registry.mem_rules_iff.1 h with rfl | rfl | rfl | rfl
  · exact follows_apply_braceAttributes hR
      (fun a _ new hnew => BraceAttribute.lacks_template hc hnew) s
  · exact follows_apply_iframeClosing hR
      (fun attributes blanks _ _ => SelfClosingIframe.lacks_expanded hc) s
  · exact follows_apply_attributeCasing hR
      (fun m _ hname => MixedCaseName.lacks_lowered hc hname) s
  · exact follows_apply_callouts hR
      fun tag _ _ ending _ opened new hnew => CalloutTag.lacks_convert? hc hnew

end

end ComponentMarkdown
