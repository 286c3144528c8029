/-
Every substitution uses something up: an opening brace, a capital, or a
slash that does not stand directly behind `<`. Brace attributes lose their
brace, mixed-case names and callout tags their capitals, and an iframe
loses the slash that closed it. Nothing that is put in instead holds such
a character, since closing tags have their slash behind `<` and all else is
written in small letters.

`supply` counts these characters, and `Uses` says that so many
substitutions were paid for. A text counts the slash at its head or not
depending on what precedes it, so both carry along whether that is `<`.
-/
import ComponentMarkdown.Proofs.Rule.Substitutions
import ComponentMarkdown.Proofs.Text.Lines

namespace ComponentMarkdown

open Markup

namespace Text

-- ========================================================= the measure

/-- Whether a substitution can use a character up; `behind` says whether it
stands directly behind `<`. -/
def usable (behind : Bool) (c : Char) : Bool :=
  c == '{' || c.isUpper || (c == '/' && !behind)

/-- How many characters of a text substitutions can use up. -/
def supply : Bool → Text → Nat
  | _, [] => 0
  | behind, c :: rest => (usable behind c).toNat + supply (c == '<') rest

/-- The supply of two texts is the sum of their supplies, the second behind the
end of the first. -/
theorem supply_append (behind : Bool) (a b : Text) :
    supply behind (a ++ b)
      = supply behind a + supply (endsWith '<' behind a) b := by
  induction a generalizing behind with
  | nil => exact (Nat.zero_add _).symm
  | cons c a ih =>
    rw [List.cons_append, supply, ih, supply, endsWith_cons, Nat.add_assoc]

/-- A character supplies what it supplies alone. -/
theorem supply_cons (behind : Bool) (c : Char) (t : Text) :
    supply behind (c :: t)
      = supply behind [c] + supply (c == '<') t := by
  rw [supply, supply, supply, Nat.add_zero]

/-- A text behind `<` has the smaller supply. -/
theorem supply_le (behind : Bool) (t : Text) :
    supply behind t ≤ supply false t := by
  cases t with
  | nil => exact Nat.le_refl _
  | cons c t =>
    have hhead : (usable behind c).toNat ≤ (usable false c).toNat := by
      unfold usable
      cases behind <;> cases c == '{' <;> cases c.isUpper <;>
        cases c == '/' <;> decide
    exact Nat.add_le_add_right hhead _

/-- A text of unusable characters supplies nothing. -/
theorem supply_eq_zero {t : Text} (h : ∀ c ∈ t, usable false c = false)
    (behind : Bool) : supply behind t = 0 := by
  have hfalse : supply false t = 0 := by
    induction t with
    | nil => rfl
    | cons c t ih =>
      obtain ⟨hc, ht⟩ := List.forall_mem_cons.1 h
      rw [supply, hc]
      have hrest := supply_le (c == '<') t
      rw [ih ht] at hrest
      show 0 + _ = 0
      omega
  have hle := supply_le behind t
  omega

theorem usable_of_isBlank {c : Char} (hc : isBlank c = true) :
    usable false c = false :=
  eq_false_of_isBlank (by decide +kernel) hc

theorem ne_open_of_isBlank {c : Char} (hc : isBlank c = true) : c ≠ '<' := by
  rintro rfl
  exact absurd hc (by decide)

/-- Blanks supply nothing. -/
theorem supply_blanks {t : Text} (h : ∀ c ∈ t, isBlank c = true)
    (behind : Bool) : supply behind t = 0 :=
  supply_eq_zero (fun c hc => usable_of_isBlank (h c hc)) behind

theorem endsWith_blanks {t : Text} (h : ∀ c ∈ t, isBlank c = true) :
    endsWith '<' false t = false :=
  endsWith_of_not_mem fun hmem => ne_open_of_isBlank (h '<' hmem) rfl

/-- Trimming uses nothing up. -/
theorem supply_trim_le (t : Text) : supply false t.trim ≤ supply false t := by
  obtain ⟨lead, blanks, hlead, -, ht⟩ := exists_append_trim_append t
  have hsplit : supply false t = supply false (lead ++ t.trim ++ blanks) :=
    congrArg _ ht
  rw [supply_append, supply_append, supply_blanks hlead,
    endsWith_blanks hlead] at hsplit
  omega

/-- Blanks at the end supply nothing. -/
theorem supply_trimEnd (behind : Bool) (t : Text) :
    supply behind t.trimEnd = supply behind t := by
  obtain ⟨blanks, hblanks, ht⟩ := exists_trimEnd_append t
  have hsplit : supply behind t = supply behind (t.trimEnd ++ blanks) :=
    congrArg _ ht
  rw [hsplit, supply_append, supply_blanks hblanks, Nat.add_zero]

end Text

open Text

/-- So many substitutions are paid for by what they use up, and a text that
ends with `<` still does. -/
def Uses (n : Nat) (old new : Text) : Prop :=
  ∀ behind, supply behind new + n ≤ supply behind old
    ∧ (endsWith '<' behind old = true → endsWith '<' behind new = true)

theorem composes_uses : Composes Uses where
  refl s behind := ⟨Nat.le_refl _, id⟩
  append {m n a a' b b'} ha hb behind := by
    obtain ⟨ha, haend⟩ := ha behind
    constructor
    · have hb := (hb (endsWith '<' behind a')).1
      have hshift : supply (endsWith '<' behind a') b
          ≤ supply (endsWith '<' behind a) b := by
        cases hend : endsWith '<' behind a with
        | false => exact supply_le _ b
        | true => exact Nat.le_of_eq (by rw [haend hend])
      rw [supply_append, supply_append]
      omega
    · intro hend
      rw [endsWith_append] at hend ⊢
      exact endsWith_mono haend ((hb _).2 hend)
  trans {m n a b c} hab hbc behind := by
    obtain ⟨hab, habend⟩ := hab behind
    obtain ⟨hbc, hbcend⟩ := hbc behind
    exact ⟨by omega, fun h => hbcend (habend h)⟩

/-- What ends with another character than `<` may be replaced by anything
of less supply. -/
theorem uses_of_supply {n : Nat} {init new : Text} {c : Char} (hc : c ≠ '<')
    (h : ∀ behind, supply behind new + n ≤ supply behind (init ++ [c])) :
    Uses n (init ++ [c]) new := by
  intro behind
  refine ⟨h behind, fun hend => ?_⟩
  rw [endsWith_concat, beq_false_of_ne hc] at hend
  cases hend

-- ========================================================== inside tags

namespace BraceAttribute

/-- Nor does a blank in front. -/
theorem supply_lead {lead : Char} (h : isBlank lead = true) (behind : Bool)
    (t : Text) : supply behind (lead :: t) = supply false t := by
  rw [supply_cons, supply_blanks (List.forall_mem_singleton.2 h),
    beq_false_of_ne (ne_open_of_isBlank h), Nat.zero_add]

/-- A brace attribute loses its opening brace. -/
theorem uses_template {a : BraceAttribute} (ha : a.WellFormed) {new : Text}
    (hnew : a.template? = some new) : Uses 1 a.written new := by
  rw [written_split]
  refine uses_of_supply (by decide) fun behind => ?_
  have hmark (e : Bool) : supply e ['=', '{'] = 1 := by cases e <;> decide
  have hequals (e : Bool) : supply e ['=', '"'] = 0 := by cases e <;> decide
  have hquote (e : Bool) : supply e ['"'] = 0 := by cases e <;> decide
  have hold : supply false (a.name ++ ['=', '{'] ++ a.value)
      ≤ supply behind
        (a.lead :: (a.name ++ ['=', '{'] ++ a.value) ++ ['}']) := by
    rw [supply_append _ _ ['}'], supply_lead ha.lead]
    exact Nat.le_add_right _ _
  refine Nat.le_trans ?_ hold
  rw [supply_append, supply_append, hmark, endsWith_append]
  rcases template?_cases hnew with rfl | rfl
  · have htrim := supply_trim_le a.value
    have hsplit : a.lead :: a.name ++ '=' :: '"' :: a.value.trim ++ ['"']
        = a.lead :: (a.name ++ ['=', '"'] ++ a.value.trim ++ ['"']) := by
      simp
    rw [hsplit, supply_lead ha.lead, supply_append, supply_append,
      supply_append, hequals, hquote, endsWith_append]
    show _ + 0 + supply false a.value.trim + 0 + 1
      ≤ _ + 1 + supply false a.value
    omega
  · have hsplit : a.lead :: ':' :: a.name ++ '=' :: '"' :: a.value ++ ['"']
        = a.lead :: (':' :: (a.name ++ ['=', '"'] ++ a.value ++ ['"'])) := by
      simp
    rw [hsplit, supply_lead ha.lead, supply_cons, supply_append,
      supply_append, supply_append, hequals, hquote, endsWith_append]
    show 0 + (supply false a.name + 0 + supply false a.value + 0) + 1
      ≤ supply false a.name + 1 + supply false a.value
    omega

end BraceAttribute

namespace MixedCaseName

/-- A mixed-case name loses its capitals. -/
theorem uses_lowered {m : MixedCaseName} (hname : m.name ∈ known) :
    Uses 1 (m.lead ++ m.name) m.lowered := by
  have hall : ∀ name ∈ known, ∀ behind,
      supply behind name.asciiLower + 1 ≤ supply behind name
        ∧ endsWith '<' behind name = false := by decide
  intro behind
  obtain ⟨hsupply, hend⟩ := hall m.name hname (endsWith '<' behind m.lead)
  unfold lowered
  rw [supply_append, supply_append, endsWith_append, hend]
  exact ⟨by omega, fun h => by cases h⟩

end MixedCaseName

-- ============================================================= iframes

/-- The attributes of a tag do not end in an opening bracket. -/
theorem Markup.AttributeText.endsWith_open {a : Text}
    (ha : AttributeText a) : endsWith '<' false a = false := by
  induction ha with
  | nil => rfl
  | @char c rest hopen _ _ _ ih =>
    rw [endsWith_cons, beq_false_of_ne hopen]
    exact ih
  | @quoted q inner rest hquote _ _ ih =>
    have hq : q ≠ '<' := by
      rintro rfl
      exact absurd hquote (by decide)
    rw [endsWith_cons, endsWith_append, endsWith_cons, beq_false_of_ne hq]
    exact ih

/-- A self-closing iframe loses its slash. -/
theorem SelfClosingIframe.uses_expanded {attributes blanks : Text}
    (ha : AttributeText attributes) (hblanks : ∀ c ∈ blanks, isBlank c = true) :
    Uses 1 (opening ++ attributes ++ (blanks ++ ['/', '>']))
      (expanded attributes) := by
  have hsplit : opening ++ attributes ++ (blanks ++ ['/', '>'])
      = opening ++ attributes ++ (blanks ++ ['/']) ++ ['>'] := by simp
  rw [hsplit]
  refine uses_of_supply (by decide) fun behind => ?_
  have hopening : supply behind opening = 0
      ∧ endsWith '<' behind opening = false := by cases behind <;> decide
  have hclosing (e : Bool) : supply e "></iframe>".toList = 0 := by
    cases e <;> decide
  unfold expanded
  rw [supply_append, supply_append, supply_append _ _ ['>'], supply_append,
    supply_append, supply_append, hclosing, hopening.1, endsWith_append,
    hopening.2, ha.endsWith_open, endsWith_blanks hblanks,
    supply_blanks hblanks, supply_trimEnd]
  show 0 + supply false attributes + 0 + 1
    ≤ 0 + supply false attributes + (0 + 1) + _
  omega

-- ============================================================ callouts

namespace CalloutTag

/-- The classes and the other attributes of a container were there
before. -/
theorem supply_merges {attributes classes others : Text}
    (h : Merges attributes classes others) :
    supply false classes + supply false others ≤ supply false attributes := by
  rcases h with ⟨rfl, rfl⟩ | h
  · exact Nat.le_of_eq (Nat.zero_add _)
  · obtain ⟨before, use, after, rfl, rfl, c, value, hc, rfl, hvalue⟩ :=
      ClassAttribute.written_of_static h
    have hname (e : Bool) (t : Text) :
        supply e (c :: ("class".toList ++ t)) = supply false t := by
      rw [BraceAttribute.supply_lead hc, supply_append]
      exact Nat.zero_add _
    have hafter := supply_le (endsWith '<' false before) after
    rw [List.cons_append, supply_append, supply_append, supply_append, hname,
      endsWith_append, endsWith_cons, endsWith_append]
    rcases hvalue with ⟨rfl, rfl⟩ | ⟨lead, q, hlead, hq, rfl⟩
    · show 0 + _ ≤ _ + 0 + supply false after
      omega
    · have hleadspent : supply false lead = 0 := by
        refine supply_eq_zero (fun d hd => ?_) false
        rcases hlead d hd with hd | rfl
        · exact usable_of_isBlank hd
        · decide
      have hquote : q ≠ '<' ∧ ∀ e, supply e [q] = 0 := by
        rcases isQuote_iff.1 hq with rfl | rfl <;> decide
      rw [supply_append, hleadspent, supply_cons, hquote.2, supply_append,
        hquote.2, beq_false_of_ne hquote.1, endsWith_append, endsWith_cons,
        endsWith_concat, beq_false_of_ne hquote.1]
      omega

/-- A container is written with nothing that can be used up but what the
classes and the other attributes hold. -/
theorem supply_container_le (k : CalloutKind) (classes others : Text)
    (behind : Bool) :
    supply behind (k.container classes others)
      ≤ supply false classes + supply false others := by
  have hopening : supply behind "<div class=\"callout ".toList = 0 := by
    cases behind <;> decide
  have hname (e : Bool) : supply e k.className = 0 := by
    cases k <;> cases e <;> decide
  have hadded (e : Bool) :
      supply e (addedClasses classes) ≤ supply false classes := by
    have htrim := supply_trim_le classes
    unfold addedClasses
    split
    · exact Nat.zero_le _
    · rw [BraceAttribute.supply_lead (by decide)]
      exact htrim
  have hquote (e : Bool) (t : Text) : supply e ('"' :: t) = supply false t := by
    rw [supply_cons]
    cases e <;> exact Nat.zero_add _
  have hend (e : Bool) : supply e ['>'] = 0 := by cases e <;> decide
  unfold CalloutKind.container
  rw [List.append_assoc, List.cons_append, supply_append, supply_append,
    supply_append, hopening, hname, hquote, supply_append, hend]
  have := hadded (endsWith '<' behind ("<div class=\"callout ".toList
    ++ k.className))
  omega

/-- A callout tag loses the capital of its kind. -/
theorem uses_convert? {tag : CalloutTag} {ending : Text}
    (hend : tag.Ends ending) {opened : OpenCallouts} {new : Text}
    (hnew : (tag.convert? opened).1 = some new) :
    Uses 1 (tag.written ending) new := by
  have hname (e : Bool) : supply e tag.kind.tagName = 1
      ∧ endsWith '<' e tag.kind.tagName = false := by
    cases tag.kind <;> cases e <;> decide
  obtain ⟨init, hinit⟩ : ∃ init, tag.written ending = init ++ ['>'] := by
    unfold written
    rcases hend with ⟨-, rfl⟩ | ⟨-, blanks, -, rfl⟩
    · exact ⟨_, rfl⟩
    · have hsplit : blanks ++ ['/', '>'] = (blanks ++ ['/']) ++ ['>'] := by
        simp
      rw [hsplit, ← List.append_assoc]
      exact ⟨_, rfl⟩
  have hold (behind : Bool) : 1 + supply false tag.attributes
      ≤ supply behind (tag.written ending) := by
    unfold written
    rw [supply_append, supply_append, supply_append, (hname _).1,
      endsWith_append, (hname _).2]
    omega
  rw [hinit] at hold ⊢
  refine uses_of_supply (by decide) fun behind => ?_
  have hold := hold behind
  have hcontainerEnd (e : Bool) : supply e containerEnd = 0 := by
    cases e <;> decide
  rcases convert?_eq_some hnew with
    ⟨-, -, -, rfl⟩ | ⟨-, container, hcontainer, rfl⟩
  · rw [hcontainerEnd]
    omega
  · obtain ⟨classes, others, hmerges, rfl⟩ := container?_eq_some hcontainer
    have hmerged := supply_merges hmerges
    have hcontainer := supply_container_le tag.kind classes others behind
    have htail (e : Bool) :
        supply e (if tag.selfClosing then containerEnd else []) = 0 := by
      split
      · exact hcontainerEnd e
      · rfl
    rw [supply_trimEnd] at hmerged
    rw [supply_append, htail]
    omega

end CalloutTag

-- ============================================================ all rules

/-- Every rule there is uses something up for each substitution. -/
theorem Rule.uses_apply {rule : Rule} (h : rule ∈ Registry.rules)
    (s : Text) : (rule.apply s).Follows Uses s := by
  rcases Registry.mem_rules_iff.1 h with rfl | rfl | rfl | rfl
  · exact follows_apply_braceAttributes composes_uses
      (fun a ha new hnew => BraceAttribute.uses_template ha hnew) s
  · exact follows_apply_iframeClosing composes_uses
      (fun attributes blanks ha hblanks =>
        SelfClosingIframe.uses_expanded ha hblanks) s
  · exact follows_apply_attributeCasing composes_uses
      (fun m _ hname => MixedCaseName.uses_lowered hname) s
  · exact follows_apply_callouts composes_uses
      fun tag _ _ ending hend opened new hnew =>
        CalloutTag.uses_convert? hend hnew

end ComponentMarkdown
