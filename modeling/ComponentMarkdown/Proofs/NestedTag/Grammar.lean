/-
Opening tags as the machine takes them, with all that may stand in them: a
name, and behind a blank characters without a meaning of their own, quoted
values, and expressions in braces, which may hold groups in braces of their
own. A text is taken as a tag exactly if it is written like that
(`openingTag?_eq_some_iff`).

What one character does to the machine, it does to what the grammar expects
(`expects_of_step`, `expects_of_finish`); so each mode of the machine stands
for what is still to be written of a tag.
-/
import ComponentMarkdown.Proofs.Markup.Opening
import ComponentMarkdown.Proofs.Splice.Extent
import ComponentMarkdown.Proofs.Tagged.Parts
import ComponentMarkdown.Proofs.TaggedText.Grammar

namespace ComponentMarkdown

open Markup
open TaggedText (QuotedValue TagPart)

namespace NestedTag

-- ============================================================ the grammar

/-- Whether a text holds no braces. -/
def Braceless (t : Text) : Prop := ∀ c ∈ t, c ≠ '{' ∧ c ≠ '}'

/-- What stands in an expression: characters, and groups in braces that hold
no more braces. -/
inductive Inner where
  | char (c : Char) (plain : c ≠ '{' ∧ c ≠ '}')
  | group (text : Text) (plain : Braceless text)

/-- The character or the group as it is written. -/
def Inner.written : Inner → Text
  | .char c _ => [c]
  | .group text _ => '{' :: (text ++ ['}'])

/-- What stands between the name of a tag and its end. -/
inductive Part where
  | char (c : Char) (plain : c ∉ TagMode.marks)
  | quoted (value : QuotedValue)
  | braces (expression : List Inner)

/-- The part as it is written. -/
def Part.written : Part → Text
  | .char c _ => [c]
  | .quoted value => value.written
  | .braces expression => '{' :: (expression.flatMap Inner.written ++ ['}'])

section

open TagMode

/-- The machine goes through what stands in an expression. -/
theorem Inner.leads_written (i : Inner) :
    Leads .braces .braces i.written := by
  cases i with
  | char c plain =>
    refine leads_of_step ?_
    simp [step, plain]
  | group text plain =>
    have hstay : Leads .nested .nested text :=
      leads_of_stay fun c hc => by simp [step, plain c hc]
    have hopen : Leads .braces .nested ['{'] := leads_of_step rfl
    have hclose : Leads .nested .braces ['}'] := leads_of_step rfl
    exact hopen.append (hstay.append hclose)

/-- The machine goes through a part. -/
theorem Part.leads_written (part : Part) :
    Leads .attributes .attributes part.written := by
  cases part with
  | char c plain => exact leads_of_step (step_attributes_of_not_mem plain)
  | quoted value => exact leads_quoted value.quote_isQuote value.unquoted
  | braces expression =>
    have hopen : Leads .attributes .braces ['{'] := leads_of_step rfl
    have hclose : Leads .braces .attributes ['}'] := leads_of_step rfl
    exact hopen.append
      ((leads_flatMap Inner.leads_written expression).append hclose)

end

instance : TagPart Part where
  written := Part.written
  leads := Part.leads_written

/-- Whether a part may directly follow the name. -/
def Part.IsBlank : Part → Prop
  | .char c _ => isBlank c = true
  | _ => False

/-- A part that may directly follow the name starts with a blank. -/
theorem Part.IsBlank.exists_lead {part : Part} (h : part.IsBlank) :
    ∃ c t, part.written = c :: t ∧ isBlank c = true := by
  cases part with
  | char c plain => exact ⟨c, [], rfl, h⟩
  | quoted value => cases h
  | braces expression => cases h

end NestedTag

open NestedTag in
/-- An opening tag with such parts, of which the first starts with a
blank. -/
structure NestedTag extends TaggedText.OpenTag Part where
  lead : ∀ part ∈ parts.head?, part.IsBlank

namespace NestedTag

-- ============================================================== places

/-- A tag up to one of its parts, given those before it. -/
def upTo (tag : NestedTag) (before : List Part) : Text :=
  '<' :: (tag.name.text ++ before.flatMap Part.written)

/-- A tag from behind one of its parts, given those after it. -/
def behind (tag : NestedTag) (after : List Part) : Text :=
  after.flatMap Part.written ++ tag.ending

theorem behind_append (tag : NestedTag) (parts after : List Part) :
    tag.behind (parts ++ after)
      = parts.flatMap Part.written ++ tag.behind after := by
  unfold behind
  rw [List.flatMap_append, List.append_assoc]

theorem behind_cons (tag : NestedTag) (part : Part) (after : List Part) :
    tag.behind (part :: after) = part.written ++ tag.behind after :=
  (tag.behind_append [part] after).trans (by simp)

/-- A tag around one of its parts. -/
theorem written_of_parts {tag : NestedTag} {before after : List Part}
    {part : Part} (h : tag.parts = before ++ part :: after) :
    tag.written = tag.upTo before ++ (part.written ++ tag.behind after) := by
  have hbehind : tag.behind tag.parts
      = before.flatMap Part.written
        ++ (part.written ++ tag.behind after) := by
    rw [← behind_cons, ← behind_append, ← h]
  show '<' :: (tag.name.text ++ tag.behind tag.parts) = _
  unfold upTo
  rw [hbehind, List.cons_append, List.append_assoc]

/-- A place in a list of parts, and their end, lies in one of the parts or
at the end. -/
theorem exists_part_of_suffix {tag : NestedTag} {parts : List Part} {r : Text}
    (hr : r <:+ tag.behind parts) :
    (∃ before part after x, parts = before ++ part :: after ∧ x ≠ []
        ∧ x <:+ part.written ∧ r = x ++ tag.behind after)
      ∨ r <:+ tag.ending := by
  induction parts with
  | nil => exact Or.inr hr
  | cons part parts ih =>
    rw [behind_cons] at hr
    rcases suffix_append_cases hr with ⟨x, hx, hsuffix, rfl⟩ | hr
    · exact Or.inl ⟨[], part, parts, x, rfl, hx, hsuffix, rfl⟩
    · refine (ih hr).imp_left ?_
      rintro ⟨before, p, after, x, rfl, hx⟩
      exact ⟨part :: before, p, after, x, rfl, hx⟩

/-- A place where a blank stands lies in one of the parts. -/
theorem exists_part_of_blank {tag : NestedTag} {c : Char} {r : Text}
    (hc : isBlank c = true) (hr : c :: r <:+ tag.written) :
    ∃ before part after x, tag.parts = before ++ part :: after ∧ x ≠ []
      ∧ x <:+ part.written ∧ c :: r = x ++ tag.behind after := by
  have hnot {t : Text} (ht : ∀ d ∈ t, isBlank d = false) {x y : Text}
      (hx : x ≠ []) (hsuffix : x <:+ t) : c :: r ≠ x ++ y := by
    intro heq
    cases x with
    | nil => exact hx rfl
    | cons d x =>
      cases heq
      rw [ht c (hsuffix.subset List.mem_cons_self)] at hc
      cases hc
  have hname : ∀ d ∈ '<' :: tag.name.text, isBlank d = false :=
    List.forall_mem_cons.2 ⟨by decide, fun d hd =>
      TaggedText.isBlank_of_isTagNameChar (tag.name.nameChar d hd)⟩
  have hending : ∀ d ∈ tag.ending, isBlank d = false := by
    unfold TaggedText.OpenTag.ending
    cases tag.slash <;> decide
  have hwritten : tag.written
      = ('<' :: tag.name.text) ++ tag.behind tag.parts := rfl
  rw [hwritten] at hr
  rcases suffix_append_cases hr with ⟨x, hx, hsuffix, heq⟩ | hr
  · exact absurd heq (hnot hname hx hsuffix)
  · rcases exists_part_of_suffix hr with hpart | hr
    · exact hpart
    · exact absurd (List.append_nil _).symm
        (hnot hending (List.cons_ne_nil c r) hr)

-- ============================================================== marks

/-- What holds no mark ends before one. -/
theorem exists_append_of_mark {w after y rest : Text} {d : Char}
    (hw : ∀ c ∈ w, c ∉ TagMode.marks) (hd : d ∈ TagMode.marks)
    (h : w ++ after = y ++ d :: rest) :
    ∃ z, y = w ++ z ∧ after = z ++ d :: rest := by
  rcases List.append_eq_append_iff.1 h with ⟨z, hy, hafter⟩ | ⟨z, rfl, hz⟩
  · exact ⟨z, hy, hafter⟩
  · cases z with
    | nil => exact ⟨[], by simp, by simpa using hz.symm⟩
    | cons c z =>
      obtain ⟨rfl, -⟩ := List.cons.inj hz
      exact absurd hd (hw d (List.mem_append_right y List.mem_cons_self))

/-- Whether a part is a quoted value or an expression. -/
def Part.IsValue : Part → Prop
  | .char _ _ => False
  | .quoted _ => True
  | .braces _ => True

/-- A value starts and ends with a mark. -/
theorem Part.IsValue.exists_marks {part : Part} (h : part.IsValue) :
    ∃ first inner last, part.written = first :: (inner ++ [last])
      ∧ first ∈ TagMode.marks ∧ last ∈ TagMode.marks := by
  cases part with
  | char c plain => cases h
  | quoted value =>
    have hquote : value.quote ∈ TagMode.marks := by
      rcases isQuote_iff.1 value.quote_isQuote with hq | hq <;> rw [hq] <;>
        decide
    exact ⟨value.quote, value.text, value.quote, rfl, hquote, hquote⟩
  | braces expression =>
    exact ⟨'{', expression.flatMap Inner.written, '}', rfl, by decide,
      by decide⟩

/-- From any place in a value, it runs up to a mark. -/
theorem Part.IsValue.exists_append_mark {part : Part} (h : part.IsValue)
    {x : Text} (hx : x ≠ []) (hsuffix : x <:+ part.written) :
    ∃ y d, d ∈ TagMode.marks ∧ x = y ++ [d] := by
  obtain ⟨first, inner, last, hwritten, -, hlast⟩ := h.exists_marks
  rw [hwritten, ← List.cons_append] at hsuffix
  rcases suffix_append_cases hsuffix with ⟨y, -, -, rfl⟩ | hsuffix
  · exact ⟨y, last, hlast, rfl⟩
  · rcases List.suffix_cons_iff.1 hsuffix with rfl | hnil
    · exact ⟨[], last, hlast, rfl⟩
    · exact absurd (List.suffix_nil.1 hnil) hx

-- =================================================== tags that are taken

/-- The parts of a tag and its end. -/
def PartsEnd (t : Text) : Prop :=
  ∃ parts : List Part, t = parts.flatMap Part.written ++ ['>']

/-- The rest of an expression, and what follows it. -/
def ExpressionEnd (t : Text) : Prop :=
  ∃ (expression : List Inner) (rest : Text),
    t = expression.flatMap Inner.written ++ '}' :: rest ∧ PartsEnd rest

/-- What is still to be written of a tag, by the mode of the machine. -/
def Expects : TagMode → Text → Prop
  | .name, t => ∃ rest after, t = rest ++ after
      ∧ (∀ c ∈ rest, isTagNameChar c = true)
      ∧ (after = ['/', '>'] ∨ ∃ parts : List Part,
          (∀ part ∈ parts.head?, part.IsBlank)
          ∧ after = parts.flatMap Part.written ++ ['>'])
  | .slash, t => t = ['>']
  | .attributes, t => PartsEnd t
  | .quoted q, t => ∃ inner rest, t = inner ++ q :: rest ∧ q ∉ inner
      ∧ PartsEnd rest
  | .braces, t => ExpressionEnd t
  | .nested, t => ∃ text rest, t = text ++ '}' :: rest ∧ Braceless text
      ∧ ExpressionEnd rest

theorem PartsEnd.cons (part : Part) {t : Text} (h : PartsEnd t) :
    PartsEnd (part.written ++ t) := by
  obtain ⟨parts, rfl⟩ := h
  exact ⟨part :: parts, by rw [List.flatMap_cons, List.append_assoc]⟩

theorem ExpressionEnd.cons (i : Inner) {t : Text} (h : ExpressionEnd t) :
    ExpressionEnd (i.written ++ t) := by
  obtain ⟨expression, rest, rfl, hrest⟩ := h
  exact ⟨i :: expression, rest,
    by rw [List.flatMap_cons, List.append_assoc], hrest⟩

/-- The character that ends a tag ends what the grammar expects. -/
theorem expects_of_finish {mode : TagMode} {c : Char}
    (h : mode.step c = .finish) : Expects mode [c] := by
  cases mode with
  | name =>
    have hc : c = '>' := by grind [TagMode.step]
    rw [hc]
    exact ⟨[], ['>'], rfl, List.forall_mem_nil _, Or.inr ⟨[], by simp, rfl⟩⟩
  | slash =>
    have hc : c = '>' := by grind [TagMode.step]
    rw [hc]
    exact rfl
  | attributes =>
    have hc : c = '>' := by grind [TagMode.step]
    rw [hc]
    exact ⟨[], rfl⟩
  | quoted q => grind [TagMode.step]
  | braces => grind [TagMode.step]
  | nested => grind [TagMode.step]

section

variable {next : TagMode} {c : Char} {t : Text}

/-- In the name of a tag, a step of the machine is one of the grammar. -/
theorem expects_name (h : TagMode.name.step c = .stay next)
    (ht : Expects next t) : Expects .name (c :: t) := by
  simp only [TagMode.step] at h
  split at h
  · rename_i hname
    cases h
    obtain ⟨rest, after, rfl, hrest, hafter⟩ := ht
    exact ⟨c :: rest, after, rfl, List.forall_mem_cons.2 ⟨hname, hrest⟩,
      hafter⟩
  · split at h
    · rename_i hblank
      cases h
      obtain ⟨parts, rfl⟩ := ht
      have hplain : c ∉ TagMode.marks := not_mem_of_class (by decide) hblank
      refine ⟨[], _, rfl, List.forall_mem_nil _,
        Or.inr ⟨.char c hplain :: parts, ?_, rfl⟩⟩
      rintro _ ⟨⟩
      exact hblank
    · split at h
      · rename_i hslash
        cases h
        rw [hslash, show t = ['>'] from ht]
        exact ⟨[], _, rfl, List.forall_mem_nil _, Or.inl rfl⟩
      · split at h <;> cases h

/-- So it is among the attributes, -/
theorem expects_attributes (h : TagMode.attributes.step c = .stay next)
    (ht : Expects next t) : Expects .attributes (c :: t) := by
  simp only [TagMode.step] at h
  split at h
  · cases h
  · rename_i hclose
    split at h
    · cases h
    · rename_i hmarks
      split at h
      · rename_i hopen
        cases h
        obtain ⟨expression, rest, rfl, hrest⟩ := ht
        have hwritten : c :: (expression.flatMap Inner.written ++ '}' :: rest)
            = (Part.braces expression).written ++ rest := by
          simp [hopen, Part.written]
        rw [hwritten]
        exact hrest.cons (.braces expression)
      · rename_i hopen
        split at h
        · rename_i hquote
          cases h
          obtain ⟨inner, rest, rfl, hinner, hrest⟩ := ht
          have hwritten : c :: (inner ++ c :: rest)
              = (Part.quoted ⟨c, inner, isQuote_iff.2 hquote, hinner⟩).written
                ++ rest := by
            simp [Part.written, QuotedValue.written]
          rw [hwritten]
          exact hrest.cons _
        · rename_i hquote
          cases h
          have hplain : c ∉ TagMode.marks := by
            rw [not_or] at hmarks hquote
            simp [TagMode.marks, hclose, hmarks, hopen, hquote]
          exact PartsEnd.cons (.char c hplain) ht

/-- in a quoted value, -/
theorem expects_quoted {q : Char} (h : (TagMode.quoted q).step c = .stay next)
    (ht : Expects next t) : Expects (.quoted q) (c :: t) := by
  simp only [TagMode.step] at h
  split at h
  · rename_i hquote
    cases h
    rw [hquote]
    exact ⟨[], t, rfl, List.not_mem_nil, ht⟩
  · rename_i hquote
    cases h
    obtain ⟨inner, rest, rfl, hinner, hrest⟩ := ht
    refine ⟨c :: inner, rest, rfl, ?_, hrest⟩
    rw [List.mem_cons, not_or]
    exact ⟨Ne.symm hquote, hinner⟩

/-- in an expression, -/
theorem expects_braces (h : TagMode.braces.step c = .stay next)
    (ht : Expects next t) : Expects .braces (c :: t) := by
  simp only [TagMode.step] at h
  split at h
  · rename_i hopen
    cases h
    obtain ⟨text, rest, rfl, htext, hrest⟩ := ht
    have hwritten : c :: (text ++ '}' :: rest)
        = (Inner.group text htext).written ++ rest := by
      simp [hopen, Inner.written]
    rw [hwritten]
    exact hrest.cons (.group text htext)
  · split at h
    · rename_i hclose
      cases h
      rw [hclose]
      exact ⟨[], t, rfl, ht⟩
    · rename_i hopen hclose
      cases h
      exact ExpressionEnd.cons (.char c ⟨hopen, hclose⟩) ht

/-- and in a group within one. -/
theorem expects_nested (h : TagMode.nested.step c = .stay next)
    (ht : Expects next t) : Expects .nested (c :: t) := by
  simp only [TagMode.step] at h
  split at h
  · cases h
  · split at h
    · rename_i hclose
      cases h
      rw [hclose]
      exact ⟨[], t, rfl, List.forall_mem_nil _, ht⟩
    · rename_i hopen hclose
      cases h
      obtain ⟨text, rest, rfl, htext, hrest⟩ := ht
      exact ⟨c :: text, rest, rfl,
        List.forall_mem_cons.2 ⟨⟨hopen, hclose⟩, htext⟩, hrest⟩

/-- A step of the machine is one of the grammar. -/
theorem expects_of_step {mode : TagMode} (h : mode.step c = .stay next)
    (ht : Expects next t) : Expects mode (c :: t) := by
  cases mode with
  | name => exact expects_name h ht
  | slash => grind [TagMode.step]
  | attributes => exact expects_attributes h ht
  | quoted q => exact expects_quoted h ht
  | braces => exact expects_braces h ht
  | nested => exact expects_nested h ht

end

/-- What the machine takes of a tag is what the grammar expects. -/
theorem expects_of_takeTag {mode : TagMode} {s t : Text}
    (h : mode.takeTag s = some t) : Expects mode t := by
  induction s generalizing mode t with
  | nil => cases h
  | cons c s ih =>
    rw [TagMode.takeTag] at h
    cases hstep : mode.step c with
    | finish =>
      rw [hstep] at h
      cases h
      exact expects_of_finish hstep
    | fail =>
      rw [hstep] at h
      cases h
    | stay next =>
      rw [hstep] at h
      obtain ⟨u, hu, rfl⟩ := Option.map_eq_some_iff.1 h
      exact expects_of_step hstep (ih hu)

/-- A tag is taken exactly where one is written. -/
theorem openingTag?_eq_some_iff {s t : Text} :
    openingTag? s = some t ↔ t <+: s ∧ ∃ tag : NestedTag, tag.written = t := by
  constructor
  · intro h
    refine ⟨openingTag?_isPrefix h, ?_⟩
    unfold openingTag? at h
    split at h
    · rename_i first rest
      split at h
      · rename_i hfirst
        obtain ⟨u, hu, rfl⟩ := Option.map_eq_some_iff.1 h
        obtain ⟨name, after, rfl, hname, hafter⟩ := expects_of_takeTag hu
        rcases hafter with rfl | ⟨parts, hlead, rfl⟩
        · exact ⟨⟨⟨⟨first, name, hfirst, hname⟩, [], true⟩, nofun⟩, rfl⟩
        · exact ⟨⟨⟨⟨first, name, hfirst, hname⟩, parts, false⟩, hlead⟩, rfl⟩
      · cases h
    · cases h
  · rintro ⟨⟨after, rfl⟩, tag, rfl⟩
    exact TaggedText.OpenTag.openingTag?_written
      (fun part hpart => (tag.lead part hpart).exists_lead) after

/-- The opening tags of a text are tags as they are written. -/
theorem exists_written_of_mem {s t : Text} (h : t ∈ openingTagsOf s) :
    ∃ tag : NestedTag, tag.written = t := by
  obtain ⟨hit, hmem, rfl⟩ := List.mem_map.1 h
  obtain ⟨r, -, hscan⟩ := openingTags.mem_hits_iff.1 hmem
  obtain ⟨t, htag, rfl⟩ := Option.map_eq_some_iff.1 hscan
  exact (openingTag?_eq_some_iff.1 htag).2

end NestedTag

end ComponentMarkdown
