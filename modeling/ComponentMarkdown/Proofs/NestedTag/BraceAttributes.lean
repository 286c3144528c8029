/-
What the rule for braces leaves alone in a tag: quoted values, and expressions
that nest another group, hold a double quote or are blank (`Protected`). The
scanner does not know where an expression begins and ends, so it may read an
attribute within one of these. But that is all that can go wrong: an
attribute that starts anywhere else is made of characters and of an
expression that is not protected (`exists_parts_of_attribute`), and reaches
into no other part. So all these parts stay exactly if the scanner comes to
no attribute to convert that starts in one of them (`keeps_iff`).

The same is said of the text of the converted tag (`stays_iff`). Attributes
grow and shrink when they are converted, so the place of a part is given by
what becomes of the attributes in front of it. One that is read in the part
shows there: it is bound by a colon in front of its name, or has a quote for
its first brace (`template?_not_append`).
-/
import ComponentMarkdown.Proofs.NestedTag.Grammar
import ComponentMarkdown.Proofs.Rule.BraceAttributes
import ComponentMarkdown.Proofs.Splice.Stretches

namespace ComponentMarkdown

open Markup

namespace NestedTag

-- ===================================================== protected parts

/-- Whether this is a group in braces of its own. -/
def Inner.IsGroup : Inner → Prop
  | .char _ _ => False
  | .group _ _ => True

/-- Whether the rule is to leave a part alone: a quoted value, or an
expression that nests a group, holds a double quote or is blank. -/
def Part.Protected : Part → Prop
  | .char _ _ => False
  | .quoted _ => True
  | .braces expression =>
    (∃ i ∈ expression, i.IsGroup)
      ∨ '"' ∈ expression.flatMap Inner.written
      ∨ ∀ c ∈ expression.flatMap Inner.written, isBlank c = true

/-- A protected part is a quoted value or an expression. -/
theorem Part.Protected.isValue {part : Part} (h : part.Protected) :
    part.IsValue := by
  cases part with
  | char c plain => exact h
  | quoted value => trivial
  | braces expression => trivial

/-- Whether all protected parts of a tag are left alone. -/
def Keeps (tag : NestedTag) : Prop :=
  ∀ before part after, tag.parts = before ++ part :: after → part.Protected →
    BraceAttribute.scanner.Leaves BraceAttribute.edit (tag.upTo before)
      part.written (tag.behind after)

/-- What the rule puts for the attributes of a tag that it converts, each at
its place. -/
def conversions (tag : NestedTag) :
    List (Match (Option BraceAttribute) × Option Edited) :=
  BraceAttribute.scanner.replacements BraceAttribute.edit tag.written

/-- Whether all protected parts of a tag stand in the converted tag byte for
byte, each behind what becomes of the text in front of it. -/
def Stays (tag : NestedTag) : Prop :=
  ∀ before part after, tag.parts = before ++ part :: after → part.Protected →
    ∃ y, (BraceAttribute.convertTag tag.written).text
      = woven (tag.upTo before) 0
          (tag.conversions.filter fun a => a.1.stop ≤ (tag.upTo before).length)
        ++ (part.written ++ y)

/-- Whether attributes that start in a protected part, at a place that the
scanner comes to, have blank values. -/
def Unread (tag : NestedTag) : Prop :=
  ∀ before part after, tag.parts = before ++ part :: after → part.Protected →
    ∀ x, x ≠ [] → x <:+ part.written →
      BraceAttribute.scanner.Visits tag.written (x ++ tag.behind after) →
      ∀ a : BraceAttribute, a.WellFormed →
        a.written <+: x ++ tag.behind after → ∀ c ∈ a.value, isBlank c = true

-- ================================================ reading an attribute

/-- Expressions without groups hold no braces. -/
theorem braceless_of_not_isGroup {expression : List Inner}
    (h : ∀ i ∈ expression, ¬ i.IsGroup) :
    Braceless (expression.flatMap Inner.written) := by
  induction expression with
  | nil => exact nofun
  | cons i expression ih =>
    obtain ⟨hi, hrest⟩ := List.forall_mem_cons.1 h
    rw [List.flatMap_cons]
    cases i with
    | char c plain => exact List.forall_mem_cons.2 ⟨plain, ih hrest⟩
    | group text plain => exact absurd trivial hi

/-- What is read up to a closing brace is the whole expression. -/
theorem expression_of_prefix {value : Text} (hvalue : Braceless value)
    {expression : List Inner} {rest : Text}
    (h : value ++ ['}'] <+: expression.flatMap Inner.written ++ '}' :: rest) :
    expression.flatMap Inner.written = value
      ∧ ∀ i ∈ expression, ¬ i.IsGroup := by
  induction expression generalizing value with
  | nil =>
    cases value with
    | nil => exact ⟨rfl, nofun⟩
    | cons v value =>
      rw [List.flatMap_nil, List.nil_append, List.cons_append,
        List.cons_prefix_cons] at h
      exact absurd h.1 (hvalue v List.mem_cons_self).2
  | cons i expression ih =>
    cases i with
    | char c plain =>
      cases value with
      | nil =>
        rw [List.flatMap_cons, Inner.written, List.nil_append,
          List.append_assoc, List.singleton_append,
          List.cons_prefix_cons] at h
        exact absurd h.1.symm plain.2
      | cons v value =>
        rw [List.flatMap_cons, Inner.written, List.append_assoc,
          List.singleton_append, List.cons_append,
          List.cons_prefix_cons] at h
        obtain ⟨rfl, h⟩ := h
        obtain ⟨htext, hplain⟩ := ih (List.forall_mem_cons.1 hvalue).2 h
        exact ⟨by rw [List.flatMap_cons, htext]; rfl,
          List.forall_mem_cons.2 ⟨id, hplain⟩⟩
    | group text plain =>
      rw [List.flatMap_cons, Inner.written] at h
      cases value with
      | nil => cases (List.cons_prefix_cons.1 h).1
      | cons v value =>
        exact absurd (List.cons_prefix_cons.1 h).1
          (hvalue v List.mem_cons_self).1

section

variable {tag : NestedTag}

/-- What ends a tag. -/
theorem mem_ending {c : Char} (h : c ∈ tag.ending) : c ∈ ['/', '>'] := by
  unfold TaggedText.OpenTag.ending at h
  cases hslash : tag.slash <;> rw [hslash] at h
  · exact List.mem_cons_of_mem _ h
  · exact h

/-- Characters without a meaning of their own are parts of a tag each by
themselves. -/
theorem exists_parts_of_plain {w u : Text}
    (hw : ∀ c ∈ w, c ∉ '/' :: TagMode.marks) {parts : List Part}
    (h : w ++ u <+: tag.behind parts) :
    ∃ chars rest, parts = chars ++ rest ∧ (∀ p ∈ chars, ¬ p.Protected)
      ∧ chars.flatMap Part.written = w ∧ u <+: tag.behind rest := by
  induction w generalizing parts with
  | nil => exact ⟨[], parts, rfl, nofun, rfl, h⟩
  | cons c w ih =>
    obtain ⟨hc, hw⟩ := List.forall_mem_cons.1 hw
    have hmarks : c ∉ TagMode.marks :=
      fun hmem => hc (List.mem_cons_of_mem _ hmem)
    cases parts with
    | nil =>
      rcases List.mem_cons.1 (mem_ending (h.subset List.mem_cons_self)) with
        rfl | hend
      · exact absurd List.mem_cons_self hc
      · rw [List.mem_singleton.1 hend] at hmarks
        exact absurd hmarks (by decide)
    | cons part parts =>
      rw [behind_cons] at h
      cases part with
      | char d plain =>
        obtain ⟨rfl, hrest⟩ := List.cons_prefix_cons.1 h
        obtain ⟨chars, rest, rfl, hchars, rfl, hu⟩ := ih hw hrest
        exact ⟨.char c plain :: chars, rest, rfl,
          List.forall_mem_cons.2 ⟨id, hchars⟩, rfl, hu⟩
      | quoted value =>
        obtain ⟨rfl, -⟩ := List.cons_prefix_cons.1 h
        rcases isQuote_iff.1 value.quote_isQuote with hq | hq <;>
          rw [hq] at hmarks <;> exact absurd hmarks (by decide)
      | braces expression =>
        obtain ⟨rfl, -⟩ := List.cons_prefix_cons.1 h
        exact absurd hmarks (by decide)

/-- What is read between braces is an expression, and the whole of it. -/
theorem exists_expression {value : Text} (hvalue : Braceless value)
    {parts : List Part} (h : '{' :: (value ++ ['}']) <+: tag.behind parts) :
    ∃ expression rest, parts = .braces expression :: rest
      ∧ expression.flatMap Inner.written = value
      ∧ ∀ i ∈ expression, ¬ i.IsGroup := by
  cases parts with
  | nil => exact absurd (mem_ending (h.subset List.mem_cons_self)) (by decide)
  | cons part parts =>
    rw [behind_cons] at h
    cases part with
    | char d plain =>
      obtain ⟨rfl, -⟩ := List.cons_prefix_cons.1 h
      exact absurd plain (by decide)
    | quoted value =>
      have hquote := value.quote_isQuote
      rw [← (List.cons_prefix_cons.1 h).1] at hquote
      cases hquote
    | braces expression =>
      rw [Part.written, List.cons_append, List.cons_prefix_cons,
        List.append_assoc] at h
      exact ⟨expression, parts, rfl, expression_of_prefix hvalue h.2⟩

theorem written_eq (a : BraceAttribute) :
    a.written
      = a.lead :: ((a.name ++ ['=']) ++ '{' :: (a.value ++ ['}'])) := by
  simp [BraceAttribute.written]

/-- No character up to the equals sign has a meaning of its own in a tag. -/
theorem not_mem_marks_of_name {a : BraceAttribute} (ha : a.WellFormed) :
    ∀ c ∈ a.name ++ ['='], c ∉ '/' :: TagMode.marks :=
  List.forall_mem_append.2 ⟨fun c hc =>
    not_mem_of_class (by decide) (ha.isNameChar_name c hc), by decide⟩

/-- No mark stands before the braces of an attribute. -/
theorem not_mem_marks_of_front {a : BraceAttribute} (ha : a.WellFormed) :
    ∀ c ∈ a.lead :: (a.name ++ ['=']), c ∉ TagMode.marks :=
  List.forall_mem_cons.2 ⟨not_mem_of_class (by decide) ha.lead,
    fun c hc hmem => not_mem_marks_of_name ha c hc
      (List.mem_cons_of_mem _ hmem)⟩

/-- An attribute that starts with a character of a tag takes this character
and the parts behind it, through an expression that is not protected. -/
theorem exists_parts_of_attribute {a : BraceAttribute} (ha : a.WellFormed)
    (hvalue : ¬ ∀ c ∈ a.value, isBlank c = true) {c : Char}
    {after : List Part} (h : a.written <+: c :: tag.behind after) :
    ∃ parts rest, after = parts ++ rest ∧ (∀ p ∈ parts, ¬ p.Protected)
      ∧ a.written = c :: parts.flatMap Part.written := by
  have hwritten := written_eq a
  have hname := not_mem_marks_of_name ha
  have hbraceless : Braceless a.value := by
    intro d hd
    have hnot := not_mem_of_class
      (show ∀ d ∈ ['{', '}'], BraceAttribute.isValueChar d = false by decide)
      (ha.value d hd)
    simpa [not_or] using hnot
  rw [hwritten] at h
  obtain ⟨rfl, hbehind⟩ := List.cons_prefix_cons.1 h
  obtain ⟨chars, rest, rfl, hchars, htext, hrest⟩ :=
    exists_parts_of_plain hname hbehind
  obtain ⟨expression, rest, rfl, hexpression, hgroups⟩ :=
    exists_expression hbraceless hrest
  refine ⟨chars ++ [.braces expression], rest, by simp,
    List.forall_mem_append.2 ⟨hchars, List.forall_mem_singleton.2 ?_⟩, ?_⟩
  · rintro (⟨i, hi, hgroup⟩ | hquote | hblank)
    · exact hgroups i hi hgroup
    · rw [hexpression] at hquote
      exact absurd (ha.value _ hquote) (by decide)
    · rw [hexpression] at hblank
      exact hvalue hblank
  · rw [hwritten, List.flatMap_append, htext, List.flatMap_singleton,
      Part.written, hexpression]

/-- Which brace comes first can be seen. -/
theorem append_open_ne_append_close {a b : Text} (ha : Braceless a)
    (hb : Braceless b) (s t : Text) : a ++ '{' :: s ≠ b ++ '}' :: t := by
  intro h
  induction a generalizing b with
  | nil =>
    cases b with
    | nil => cases h
    | cons d b =>
      exact absurd (List.cons.inj h).1.symm (hb d List.mem_cons_self).1
  | cons c a ih =>
    cases b with
    | nil => exact absurd (List.cons.inj h).1 (ha c List.mem_cons_self).2
    | cons d b =>
      exact ih (List.forall_mem_cons.1 ha).2 (List.forall_mem_cons.1 hb).2
        (List.cons.inj h).2

/-- No attribute starts in an expression that is not protected. -/
theorem not_attribute_of_expression {a : BraceAttribute} (ha : a.WellFormed)
    {expression : List Inner} (h : ¬ (Part.braces expression).Protected)
    {x : Text} (hx : x ≠ []) (hsuffix : x <:+ (Part.braces expression).written)
    (rest : Text) : ¬ a.written <+: x ++ rest := by
  have hinner : Braceless (expression.flatMap Inner.written) :=
    braceless_of_not_isGroup fun i hi hgroup => h (Or.inl ⟨i, hi, hgroup⟩)
  rintro ⟨after, heq⟩
  rw [written_eq] at heq
  -- the first brace of the attribute opens, that of the place closes
  have hplace : ∃ m, x = m ++ ['}'] ∧ Braceless m := by
    rcases List.suffix_cons_iff.1 hsuffix with rfl | hsuffix
    · exact absurd ((List.cons.inj heq).1 ▸ ha.lead) (by decide)
    · rcases suffix_append_cases hsuffix with ⟨m, -, hm, rfl⟩ | hlast
      · exact ⟨m, rfl, fun c hc => hinner c (hm.subset hc)⟩
      · rcases List.suffix_cons_iff.1 hlast with rfl | hnil
        · exact ⟨[], rfl, nofun⟩
        · exact absurd (List.suffix_nil.1 hnil) hx
  obtain ⟨m, rfl, hm⟩ := hplace
  have hbefore : Braceless (a.lead :: (a.name ++ ['='])) := by
    intro c hc
    have hnot := not_mem_marks_of_front ha c hc
    constructor
    · rintro rfl
      exact absurd hnot (by decide)
    · rintro rfl
      exact absurd hnot (by decide)
  refine append_open_ne_append_close hbefore hm (a.value ++ ['}'] ++ after) rest ?_
  simpa using heq

end

-- ====================================================== what is left alone

/-- What the rule replaces are attributes with more than blanks in their
braces. -/
theorem replaced_iff {r : Text} {h : Hit (Option BraceAttribute)} :
    (BraceAttribute.scanner.scan r = some h
        ∧ (BraceAttribute.edit h).count ≠ 0)
      ↔ ∃ a : BraceAttribute, a.WellFormed ∧ a.written <+: r
        ∧ h = ⟨a.written, some a⟩ ∧ ¬ ∀ c ∈ a.value, isBlank c = true := by
  obtain ⟨taken, value⟩ := h
  unfold BraceAttribute.edit
  rw [Ne, Scanner.count_substitution_eq_zero_iff]
  constructor
  · rintro ⟨hscan, hnew⟩
    cases value with
    | none => exact absurd rfl hnew
    | some a =>
      obtain ⟨b, hb, heq⟩ := Option.map_eq_some_iff.1
        (BraceAttribute.passesQuoted_scanner.scan_of_some hscan)
      cases heq
      obtain ⟨ha, hread⟩ := BraceAttribute.ofText?_eq_some_iff.1 hb
      exact ⟨a, ha, hread, rfl,
        fun hblank => hnew (BraceAttribute.template?_eq_none_iff.2 hblank)⟩
  · rintro ⟨a, ha, ⟨after, rfl⟩, heq, hvalue⟩
    cases heq
    have hquote : quoted? (a.written ++ after) = none :=
      quoted?_eq_none (isQuote_of_isBlank ha.lead) _
    refine ⟨?_, fun hnone =>
      hvalue (BraceAttribute.template?_eq_none_iff.1 hnone)⟩
    rw [BraceAttribute.passesQuoted_scanner.of_unquoted hquote,
      BraceAttribute.ofText?_written ha]
    rfl

/-- What stands beside some neighbours stands after or before them. -/
theorem split_around {α : Type} {before within after ps qs : List α} {p : α}
    (h : before ++ (within ++ after) = ps ++ p :: qs) (hp : p ∉ within) :
    (∃ between, qs = between ++ (within ++ after))
      ∨ ∃ between, after = between ++ p :: qs := by
  have hbehind {m : List α} (heq : within ++ after = m ++ p :: qs) :
      ∃ between, after = between ++ p :: qs := by
    rcases List.append_eq_append_iff.1 heq with ⟨x, -, rfl⟩ | ⟨x, rfl, hx⟩
    · exact ⟨x, rfl⟩
    · cases x with
      | nil => exact ⟨[], hx.symm⟩
      | cons y x =>
        rw [List.cons_append, List.cons.injEq] at hx
        rw [hx.1] at hp
        exact absurd (List.mem_append_right m List.mem_cons_self) hp
  rcases List.append_eq_append_iff.1 h with ⟨x, -, hx⟩ | ⟨x, -, hx⟩
  · exact Or.inr (hbehind hx)
  · cases x with
    | nil => exact Or.inr (hbehind (m := []) hx.symm)
    | cons y x =>
      rw [List.cons_append, List.cons.injEq] at hx
      exact Or.inl ⟨x, hx.2⟩

/-- An attribute starts in one of the parts of a tag. -/
theorem exists_part_of_attribute {tag : NestedTag} {a : BraceAttribute}
    (ha : a.WellFormed) {r : Text} (hread : a.written <+: r)
    (hsuffix : r <:+ tag.written) :
    ∃ before part after x, tag.parts = before ++ part :: after ∧ x ≠ []
      ∧ x <:+ part.written ∧ r = x ++ tag.behind after := by
  obtain ⟨rest, rfl⟩ := hread
  exact exists_part_of_blank ha.lead hsuffix

/-- An attribute that starts in no protected part ends before such a part or
starts behind it. -/
theorem disjoint_of_unprotected {tag : NestedTag} {before after : List Part}
    {part : Part} (hparts : tag.parts = before ++ part :: after)
    (hprotected : part.Protected) {ps qs : List Part} {p : Part}
    (hplace : tag.parts = ps ++ p :: qs) (hp : ¬ p.Protected) {x : Text}
    (hx : x ≠ []) (hin : x <:+ p.written) {a : BraceAttribute}
    (ha : a.WellFormed) (hread : a.written <+: x ++ tag.behind qs)
    (hvalue : ¬ ∀ c ∈ a.value, isBlank c = true) :
    (x ++ tag.behind qs).length ≤ (tag.behind after).length
      ∨ part.written.length + (tag.behind after).length + a.written.length
        ≤ (x ++ tag.behind qs).length := by
  cases p with
  | quoted value => exact absurd trivial hp
  | braces expression =>
    exact absurd hread (not_attribute_of_expression ha hp hx hin _)
  | char c plain =>
    have hone : x = [c] := by
      rcases List.suffix_cons_iff.1 hin with hin | hin
      · exact hin
      · exact absurd (List.suffix_nil.1 hin) hx
    rw [hone] at hread ⊢
    obtain ⟨parts, others, rfl, hfree, hwritten⟩ :=
      exists_parts_of_attribute ha hvalue hread
    have hnot : part ∉ .char c plain :: parts := by
      rw [List.mem_cons, not_or]
      refine ⟨?_, fun hmem => hfree part hmem hprotected⟩
      rintro rfl
      exact hprotected
    have hsplit : ps ++ ((.char c plain :: parts) ++ others)
        = before ++ part :: after := hplace.symm.trans hparts
    rcases split_around hsplit hnot with ⟨between, rfl⟩ | ⟨between, rfl⟩
    · left
      simp only [List.cons_append, behind_append, behind_cons, Part.written,
        List.length_append, List.length_cons, List.length_nil]
      omega
    · right
      rw [hwritten]
      simp only [List.cons_append, behind_append, behind_cons,
        List.length_append, List.length_cons, List.nil_append]
      omega

/-- What the rule replaces ends before a protected part or starts behind it,
unless it starts in one. -/
theorem disjoint_of_unread {tag : NestedTag} (hunread : tag.Unread)
    {before after : List Part} {part : Part}
    (hparts : tag.parts = before ++ part :: after) (hprotected : part.Protected)
    {r : Text} (hvisits : BraceAttribute.scanner.Visits tag.written r)
    {a : BraceAttribute} (ha : a.WellFormed) (hread : a.written <+: r)
    (hvalue : ¬ ∀ c ∈ a.value, isBlank c = true) :
    r.length ≤ (tag.behind after).length
      ∨ part.written.length + (tag.behind after).length + a.written.length
        ≤ r.length := by
  obtain ⟨ps, p, qs, x, hplace, hx, hin, rfl⟩ :=
    exists_part_of_attribute ha hread hvisits.isSuffix
  have hp : ¬ p.Protected := fun hp =>
    hvalue (hunread ps p qs hplace hp x hx hin hvisits a ha hread)
  exact disjoint_of_unprotected hparts hprotected hplace hp hx hin ha hread
    hvalue

/-- All protected parts stay exactly if the scanner comes to no attribute to
convert that starts in one of them. -/
theorem keeps_iff (tag : NestedTag) : tag.Keeps ↔ tag.Unread := by
  constructor
  · intro hkeeps before part after hparts hprotected x hx hsuffix hvisits a ha
      hread
    have hleaves := (Scanner.leaves_iff _ _).1
      (hkeeps before part after hparts hprotected)
    rw [← written_of_parts hparts] at hleaves
    refine Classical.byContradiction fun hvalue => ?_
    obtain ⟨hscan, hcount⟩ := replaced_iff.2 ⟨a, ha, hread, rfl, hvalue⟩
    have hpos := List.length_pos_iff.2 hx
    have hlen := hsuffix.length_le
    have hor := hleaves _ _ hvisits hscan hcount
    rw [List.length_append] at hor
    have htaken := List.length_pos_iff.2 a.written_ne_nil
    dsimp only at hor
    omega
  · intro hunread before part after hparts hprotected
    rw [Scanner.leaves_iff, ← written_of_parts hparts]
    intro r h hvisits hscan hcount
    obtain ⟨a, ha, hread, rfl, hvalue⟩ := replaced_iff.1 ⟨hscan, hcount⟩
    exact disjoint_of_unread hunread hparts hprotected hvisits ha hread hvalue

-- ============================================================ in the text

/-- What is put for an attribute tells it from the attribute, by the opening
brace at the latest. -/
theorem template?_not_append {a : BraceAttribute} (ha : a.WellFormed)
    {new : Text} (hnew : a.template? = some new) (z rest : Text) :
    ¬ (a.lead :: (a.name ++ ['='])) ++ '{' :: z <+: new ++ rest := by
  rintro ⟨y, heq⟩
  rcases BraceAttribute.template?_cases hnew with rfl | rfl
  · -- digits stand in quotes
    simp at heq
  · -- any other value is bound, and no name starts with a colon
    obtain ⟨first, more, hname, hfirst, -⟩ := ha.name
    rw [hname] at heq
    have hcolon : first = ':' := (List.cons.inj (List.cons.inj heq).2).1
    rw [hcolon] at hfirst
    cases hfirst

/-- An attribute that starts in a value has its opening brace there. -/
theorem exists_brace_of_prefix {part : Part} (hpart : part.IsValue) {x : Text}
    (hx : x ≠ []) (hin : x <:+ part.written) {a : BraceAttribute}
    (ha : a.WellFormed) {rest : Text} (hread : a.written <+: x ++ rest) :
    ∃ z, x = (a.lead :: (a.name ++ ['='])) ++ '{' :: z := by
  obtain ⟨y, d, hd, rfl⟩ := hpart.exists_append_mark hx hin
  obtain ⟨after, hafter⟩ := hread
  have hbrace : (a.lead :: (a.name ++ ['=']))
      ++ '{' :: (a.value ++ '}' :: after) = y ++ d :: rest := by
    rw [written_eq] at hafter
    simpa using hafter
  obtain ⟨z, rfl, hz⟩ := exists_append_of_mark
    (not_mem_marks_of_front ha) hd hbrace
  rw [List.append_assoc]
  cases z with
  | nil => exact ⟨[], by rw [(List.cons.inj hz).1]; rfl⟩
  | cons c z => exact ⟨z ++ [d], by rw [(List.cons.inj hz).1]; rfl⟩

/-- What a conversion stands for. -/
theorem exists_attribute_of_mem {tag : NestedTag}
    {c : Match (Option BraceAttribute) × Option Edited}
    (hc : c ∈ tag.conversions) :
    ∃ (r : Text) (a : BraceAttribute) (new : Text),
      BraceAttribute.scanner.Visits tag.written r ∧ a.WellFormed
      ∧ a.written <+: r ∧ (¬ ∀ c ∈ a.value, isBlank c = true)
      ∧ c.1.start + r.length = tag.written.length
      ∧ c.1.hit.taken = a.written ∧ a.template? = some new
      ∧ c.2 = some ⟨new, 1⟩ := by
  obtain ⟨⟨r, hvisits, hscan, hplace⟩, hanswer, hcount⟩ :=
    BraceAttribute.scanner.mem_replacements_iff.1 hc
  obtain ⟨a, ha, hread, hhit, hvalue⟩ := replaced_iff.1 ⟨hscan, hcount⟩
  obtain ⟨new, hnew⟩ := Option.ne_none_iff_exists'.1
    (fun hnone => hvalue (BraceAttribute.template?_eq_none_iff.1 hnone))
  refine ⟨r, a, new, hvisits, ha, hread, hvalue, hplace, ?_, hnew, ?_⟩
  · rw [hhit]
  · rw [hanswer, hhit]
    unfold BraceAttribute.edit
    rw [Option.bind_some, hnew]
    rfl

/-- If no attribute is read in a protected part, all of them stand in the
converted tag. -/
theorem Unread.stays {tag : NestedTag} (h : tag.Unread) : tag.Stays := by
  intro before part after hparts hprotected
  have hne : part.written ≠ [] := by
    cases part <;> exact List.cons_ne_nil _ _
  have hwritten := written_of_parts hparts
  have hlength := congrArg List.length hwritten
  simp only [List.length_append] at hlength
  unfold conversions
  rw [hwritten]
  refine BraceAttribute.scanner.text_splice_of_apart hne fun c hc => ?_
  rw [← hwritten] at hc
  obtain ⟨r, a, new, hvisits, ha, hread, hvalue, hplace, htaken, -, -⟩ :=
    exists_attribute_of_mem hc
  have hor := disjoint_of_unread h hparts hprotected hvisits ha hread hvalue
  unfold Match.stop
  rw [htaken]
  omega

/-- Whether a conversion starts in a protected part. -/
def StartsProtected (tag : NestedTag)
    (c : Match (Option BraceAttribute) × Option Edited) : Prop :=
  ∃ before part after x, tag.parts = before ++ part :: after
    ∧ part.Protected ∧ x ≠ [] ∧ x <:+ part.written
    ∧ c.1.start + (x ++ tag.behind after).length = tag.written.length

/-- A conversion that starts in no protected part, and before the end of
one, ends in front of it. -/
theorem stop_le_of_not_startsProtected {tag : NestedTag}
    {before after : List Part} {part : Part}
    (hparts : tag.parts = before ++ part :: after) (hprotected : part.Protected)
    {c : Match (Option BraceAttribute) × Option Edited}
    (hc : c ∈ tag.conversions) (hnot : ¬ tag.StartsProtected c)
    (hstart : c.1.start < (tag.upTo before).length + part.written.length) :
    c.1.stop ≤ (tag.upTo before).length := by
  obtain ⟨r, a, new, hvisits, ha, hread, hvalue, hplace, htaken, -, -⟩ :=
    exists_attribute_of_mem hc
  obtain ⟨ps, p, qs, x, hsplit, hx, hin, rfl⟩ :=
    exists_part_of_attribute ha hread hvisits.isSuffix
  have hp : ¬ p.Protected := fun hp =>
    hnot ⟨ps, p, qs, x, hsplit, hp, hx, hin, hplace⟩
  have hor := disjoint_of_unprotected hparts hprotected hsplit hp hx hin ha
    hread hvalue
  have hlength := congrArg List.length (written_of_parts hparts)
  simp only [List.length_append] at hlength hplace hor
  unfold Match.stop
  rw [htaken]
  omega

/-- In a part that stays, what stands for the first conversion that starts
in it goes on as the part does. -/
theorem exists_new_of_stays {tag : NestedTag} {before after : List Part}
    {part : Part} (hparts : tag.parts = before ++ part :: after)
    {front later : List (Match (Option BraceAttribute) × Option Edited)}
    {m : Match (Option BraceAttribute)} {new : Text}
    (hsplit : tag.conversions = front ++ (m, some ⟨new, 1⟩) :: later)
    (hfront : ∀ c ∈ front, c.1.stop ≤ (tag.upTo before).length)
    (hstop : (tag.upTo before).length < m.stop) {p x y : Text}
    (hp : p ++ x = part.written)
    (hstart : m.start = (tag.upTo before).length + p.length)
    (hstays : (BraceAttribute.convertTag tag.written).text
      = woven (tag.upTo before) 0
          (tag.conversions.filter fun a => a.1.stop ≤ (tag.upTo before).length)
        ++ (part.written ++ y)) :
    ∃ rest, new ++ rest = x ++ y := by
  have hwritten := written_of_parts hparts
  have hinOrder : InOrder tag.written 0 (tag.conversions.map Prod.fst) :=
    BraceAttribute.scanner.inOrder_replacements tag.written
  rw [hsplit, List.map_append, List.map_cons] at hinOrder
  have hbehind := hinOrder.of_append.2
  have hlater : ∀ c ∈ later, m.stop ≤ c.1.start := fun c hc =>
    hbehind.le_start (List.mem_map_of_mem hc)
  -- only what is in front of the conversion ends in front of the part
  have hfilter : (tag.conversions.filter
      fun a => a.1.stop ≤ (tag.upTo before).length) = front := by
    have hnone : ((m, some ⟨new, 1⟩) :: later).filter
        (fun a => a.1.stop ≤ (tag.upTo before).length) = [] := by
      refine List.filter_eq_nil_iff.2
        (List.forall_mem_cons.2 ⟨by simpa using hstop, fun c hc => ?_⟩)
      have hle := hlater c hc
      have hself := c.1.start_le_stop
      simp only [decide_eq_true_eq]
      omega
    rw [hsplit, List.filter_append, hnone, List.append_nil,
      List.filter_eq_self]
    exact fun c hc => decide_eq_true (hfront c hc)
  have htake : tag.written.take (tag.upTo before).length = tag.upTo before := by
    rw [hwritten, List.take_left]
  have hstretch : stretch tag.written (tag.upTo before).length m.start = p := by
    rw [hwritten, hstart, ← hp, List.append_assoc]
    exact stretch_middle _ p _
  have htext : (BraceAttribute.convertTag tag.written).text
      = woven tag.written 0 tag.conversions :=
    BraceAttribute.scanner.text_splice_replacements tag.written
  have hwoven := woven_append_of_apart (Nat.zero_le _)
    (by omega : (tag.upTo before).length ≤ m.start)
    (hinOrder.sublist (List.sublist_append_left _ _)) hfront
    (List.forall_mem_cons.2 ⟨Nat.le_refl m.start, fun c hc =>
      Nat.le_trans m.start_le_stop (hlater c hc)⟩ :
        ∀ c ∈ (m, some ⟨new, 1⟩) :: later, m.start ≤ c.1.start)
  rw [htext, hfilter, hsplit, hwoven, htake, hstretch, ← hp, woven,
    stretch_self, List.append_assoc p] at hstays
  exact ⟨_, List.append_cancel_left (List.append_cancel_left hstays)⟩

/-- Of conversions that start in protected parts, there is a first one. -/
theorem exists_first_startsProtected {tag : NestedTag}
    {c : Match (Option BraceAttribute) × Option Edited}
    (hc : c ∈ tag.conversions) (h : tag.StartsProtected c) :
    ∃ front first later, tag.conversions = front ++ first :: later
      ∧ tag.StartsProtected first
      ∧ ∀ c ∈ front, ¬ tag.StartsProtected c := by
  classical
  obtain ⟨first, hfirst⟩ := Option.isSome_iff_exists.1
    ((List.find?_isSome (p := fun c => decide (tag.StartsProtected c))).2
      ⟨c, hc, decide_eq_true h⟩)
  obtain ⟨hprotected, front, later, hsplit, hnone⟩ :=
    List.find?_eq_some_iff_append.1 hfirst
  exact ⟨front, first, later, hsplit, of_decide_eq_true hprotected,
    fun c hc => by simpa using hnone c hc⟩

/-- The conversions before the first one end in front of its part. -/
theorem stop_le_of_front {tag : NestedTag} {before after : List Part}
    {part : Part} (hparts : tag.parts = before ++ part :: after)
    (hprotected : part.Protected)
    {front later : List (Match (Option BraceAttribute) × Option Edited)}
    {first : Match (Option BraceAttribute) × Option Edited}
    (hsplit : tag.conversions = front ++ first :: later)
    (hnone : ∀ c ∈ front, ¬ tag.StartsProtected c)
    (hstart : first.1.start
      < (tag.upTo before).length + part.written.length) :
    ∀ c ∈ front, c.1.stop ≤ (tag.upTo before).length := by
  intro c hc
  have hinOrder : InOrder tag.written 0 (tag.conversions.map Prod.fst) :=
    BraceAttribute.scanner.inOrder_replacements tag.written
  rw [hsplit, List.map_append, List.map_cons] at hinOrder
  have hle := hinOrder.of_append.1 c.1 (List.mem_map_of_mem hc)
  refine stop_le_of_not_startsProtected hparts hprotected
    (hsplit ▸ List.mem_append_left _ hc) (hnone c hc) ?_
  exact Nat.lt_of_le_of_lt (Nat.le_trans c.1.start_le_stop hle) hstart

/-- Where all protected parts stand in the converted tag, no conversion
starts in one: the first one to do so would show in its part. -/
theorem Stays.not_startsProtected {tag : NestedTag} (h : tag.Stays)
    {c : Match (Option BraceAttribute) × Option Edited}
    (hc : c ∈ tag.conversions) : ¬ tag.StartsProtected c := by
  intro hstarts
  obtain ⟨front, ⟨m, answer⟩, later, hsplit,
      ⟨before, part, after, x, hparts, hpart, hx, ⟨p, hp⟩, hplace⟩, hnone⟩ :=
    exists_first_startsProtected hc hstarts
  have hmem : (m, answer) ∈ tag.conversions := by
    rw [hsplit]
    exact List.mem_append_cons_self
  obtain ⟨r, a, new, hvisits, ha, hread, -, hr, htaken, hnew, rfl⟩ :=
    exists_attribute_of_mem hmem
  dsimp only at hplace hr htaken
  have hwritten : tag.written
      = tag.upTo before ++ p ++ (x ++ tag.behind after) := by
    rw [written_of_parts hparts, ← hp]
    simp only [List.append_assoc]
  have hlength := congrArg List.length hwritten
  simp only [List.length_append] at hlength hplace
  have hstart : m.start = (tag.upTo before).length + p.length := by omega
  have hxpos := List.length_pos_iff.2 hx
  have htakenPos := List.length_pos_iff.2 a.written_ne_nil
  have hinside : m.start < (tag.upTo before).length + part.written.length := by
    rw [← hp, List.length_append]
    omega
  have hfront := stop_le_of_front hparts hpart hsplit hnone hinside
  have hstop : (tag.upTo before).length < m.stop := by
    unfold Match.stop
    rw [htaken]
    omega
  obtain ⟨y, hstays⟩ := h before part after hparts hpart
  obtain ⟨rest, hrest⟩ := exists_new_of_stays hparts hsplit hfront hstop hp
    hstart hstays
  -- the attribute is read where the part goes on
  have hsame : r = x ++ tag.behind after := by
    have hsuffix := List.suffix_of_suffix_length_le hvisits.isSuffix
      (hwritten ▸ List.suffix_append _ _)
      (by rw [List.length_append]; omega)
    exact hsuffix.eq_of_length (by rw [List.length_append]; omega)
  rw [hsame] at hread
  obtain ⟨z, rfl⟩ := exists_brace_of_prefix hpart.isValue hx ⟨p, hp⟩ ha hread
  refine template?_not_append ha hnew z rest ?_
  rw [hrest]
  exact List.prefix_append _ _

/-- All protected parts stand in the converted tag exactly if the scanner
comes to no attribute to convert that starts in one of them. -/
theorem stays_iff (tag : NestedTag) : tag.Stays ↔ tag.Unread := by
  refine ⟨fun h before part after hparts hprotected x hx hin hvisits a ha
    hread => ?_, Unread.stays⟩
  refine Classical.byContradiction fun hvalue => ?_
  obtain ⟨hscan, hcount⟩ := replaced_iff.2 ⟨a, ha, hread, rfl, hvalue⟩
  have hle := hvisits.isSuffix.length_le
  have hplace : tag.written.length - (x ++ tag.behind after).length
      + (x ++ tag.behind after).length = tag.written.length :=
    Nat.sub_add_cancel hle
  have hmem : ((⟨tag.written.length - (x ++ tag.behind after).length,
      ⟨a.written, some a⟩⟩ : Match (Option BraceAttribute)),
      some (BraceAttribute.edit ⟨a.written, some a⟩)) ∈ tag.conversions :=
    BraceAttribute.scanner.mem_replacements_iff.2
      ⟨⟨_, hvisits, hscan, hplace⟩, rfl, hcount⟩
  exact h.not_startsProtected hmem
    ⟨before, part, after, x, hparts, hprotected, hx, hin, hplace⟩

end NestedTag

/-- The rule converts the opening tags of a text one by one. Each of them is
written in quoted values, expressions and other characters, and keeps its
protected parts exactly if the scanner comes to no attribute to convert that
starts in one; exactly then all of them stand in the converted tag byte for
byte, each behind what becomes of the text in front of it. -/
theorem keeps_apply_braceAttributes (s : Text) :
    (Rule.braceAttributes.apply s).text
        = (openingTags.pieces s).flatMap
          (editedPiece BraceAttribute.convertTag)
      ∧ (∀ t ∈ openingTagsOf s, ∃ tag : NestedTag, tag.written = t)
      ∧ ∀ tag : NestedTag,
        (tag.Keeps ↔ tag.Unread) ∧ (tag.Stays ↔ tag.Unread) := by
  refine ⟨text_apply_braceAttributes_pieces s, fun t ht => ?_,
    fun tag => ⟨tag.keeps_iff, tag.stays_iff⟩⟩
  obtain ⟨h, hmem, rfl⟩ := List.mem_map.1 ht
  obtain ⟨r, -, hscan⟩ := openingTags.mem_hits_iff.1 hmem
  obtain ⟨t, htag, rfl⟩ := Option.map_eq_some_iff.1 hscan
  exact (NestedTag.openingTag?_eq_some_iff.1 htag).2

/-- It may come to one: an expression may hold a tag with attributes of its
own. -/
theorem text_apply_braceAttributes_nested :
    openingTag? "<Card icon=\x7b<Icon size=\x7b4\x7d />\x7d>".toList
        = some "<Card icon=\x7b<Icon size=\x7b4\x7d />\x7d>".toList
      ∧ (Rule.braceAttributes.apply
          "<Card icon=\x7b<Icon size=\x7b4\x7d />\x7d>".toList).text
        = "<Card icon=\x7b<Icon size=\"4\" />\x7d>".toList := by
  decide +kernel

end ComponentMarkdown
