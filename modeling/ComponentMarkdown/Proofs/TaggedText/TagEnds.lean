/-
The attributes of a tag of tagged text, read up to the end of the tag. No
end is seen before the last attribute: every blank there is followed, sooner
or later, by a name, and a value is passed over (`passesVisible_trimmed`).
What is read are the attributes and some of the blanks behind them
(`OpenTag.attributeText`), which trimming takes off again
(`OpenTag.trimEnd_attributeText`).
-/
import ComponentMarkdown.Proofs.TaggedText.Attributes

namespace ComponentMarkdown.TaggedText

open Markup

-- ============================================================= trimming

/-- What is trimmed off are blanks, and what is left ends with an
attribute. -/
theorem exists_trimmed (parts : List Part) :
    (∃ blanks : List Blank, parts = trimmed parts ++ blanks.map Part.blank)
      ∧ (trimmed parts = []
        ∨ ∃ front a, trimmed parts = front ++ [.attr a]) := by
  induction parts with
  | nil => exact ⟨⟨[], rfl⟩, Or.inl rfl⟩
  | cons part parts ih =>
    obtain ⟨⟨blanks, hblanks⟩, hend⟩ := ih
    cases part with
    | attr a =>
      refine ⟨⟨blanks, congrArg (Part.attr a :: ·) hblanks⟩, Or.inr ?_⟩
      rcases hend with hnil | ⟨front, b, hfront⟩
      · exact ⟨[], a, congrArg (Part.attr a :: ·) hnil⟩
      · exact ⟨.attr a :: front, b, congrArg (Part.attr a :: ·) hfront⟩
    | blank b =>
      rw [trimmed]
      cases hkept : trimmed parts with
      | nil =>
        rw [hkept] at hblanks
        exact ⟨⟨b :: blanks, congrArg (Part.blank b :: ·) hblanks⟩,
          Or.inl rfl⟩
      | cons p kept =>
        rw [hkept] at hblanks hend
        refine ⟨⟨blanks, congrArg (Part.blank b :: ·) hblanks⟩, Or.inr ?_⟩
        rcases hend with hnil | ⟨front, a, hfront⟩
        · cases hnil
        · exact ⟨.blank b :: front, a, congrArg (Part.blank b :: ·) hfront⟩

/-- An attribute does not end with a blank. -/
theorem Attribute.exists_last (a : Attribute) :
    ∃ t c, a.written = t ++ [c] ∧ isBlank c = false := by
  unfold written ending
  cases a.assigned with
  | some v =>
    refine ⟨a.head ++ (v.before.map Subtype.val ++ '='
      :: (v.after.map Subtype.val ++ v.value.quote :: v.value.text)),
      v.value.quote, ?_, isBlank_of_isQuote v.value.quote_isQuote⟩
    simp [Assigned.written, QuotedValue.written]
  | none =>
    have hne := a.name.ne_nil
    refine ⟨a.lead.val :: a.name.text.dropLast, a.name.text.getLast hne, ?_,
      isBlank_of_isNameChar (a.name.nameChar _ (List.getLast_mem hne))⟩
    rw [List.append_nil, List.cons_append, List.dropLast_concat_getLast hne]
    rfl

/-- There is nothing to trim off what has been trimmed part by part. -/
theorem trimEnd_trimmed (parts : List Part) :
    Text.trimEnd ((trimmed parts).flatMap Part.written)
      = (trimmed parts).flatMap Part.written := by
  rcases (exists_trimmed parts).2 with hnil | ⟨front, a, hfront⟩
  · rw [hnil]
    rfl
  · obtain ⟨t, c, ha, hc⟩ := a.exists_last
    have hlast : [Part.attr a].flatMap Part.written = t ++ [c] :=
      (List.flatMap_singleton _ _).trans ha
    rw [hfront, List.flatMap_append, hlast, ← List.append_assoc]
    exact Text.trimEnd_concat _ hc

/-- The attributes and the blanks behind them. -/
theorem exists_written_trimmed (parts : List Part) :
    ∃ blanks : List Blank, parts.flatMap Part.written
      = (trimmed parts).flatMap Part.written ++ blanks.map Subtype.val := by
  obtain ⟨⟨blanks, hblanks⟩, -⟩ := exists_trimmed parts
  refine ⟨blanks, ?_⟩
  conv => lhs; rw [hblanks]
  rw [List.flatMap_append, flatMap_blanks fun _ => rfl]

/-- Trimming the text of parts trims the parts. -/
theorem trimEnd_flatMap_written (parts : List Part) :
    Text.trimEnd (parts.flatMap Part.written)
      = (trimmed parts).flatMap Part.written := by
  obtain ⟨blanks, hblanks⟩ := exists_written_trimmed parts
  rw [hblanks, Text.trimEnd_append_of_blank _ isBlank_of_mem, trimEnd_trimmed]

/-- Trimming what is read as attributes leaves the attributes. -/
theorem OpenTag.trimEnd_attributeText (tag : OpenTag Part) :
    Text.trimEnd tag.attributeText
      = (trimmed tag.parts).flatMap Part.written := by
  unfold attributeText
  split
  · split
    · rename_i hnil
      obtain ⟨blanks, hblanks⟩ := exists_written_trimmed tag.parts
      rw [hnil, List.flatMap_nil, List.nil_append] at hblanks
      rw [hblanks, hnil, List.flatMap_nil, Text.trimEnd_eq_nil_iff]
      exact fun c hc => isBlank_of_mem c (List.mem_of_mem_take hc)
    · exact trimEnd_trimmed tag.parts
  · exact trimEnd_flatMap_written tag.parts

-- ========================================================= before an end

section

variable {β : Type} {stop : Text → Option (Hit β)} {v : β}

/-- Whether the reader of attributes goes through a text as a whole, which
is more than blanks and goes on, behind those it starts with, with what is no
end. -/
structure PassesVisible (stop : Text → Option (Hit β)) (t : Text) : Prop where
  passes : Passes stop t
  visible : ∃ blanks c rest, t = blanks ++ c :: rest
    ∧ (∀ b ∈ blanks, isBlank b = true) ∧ isBlank c = false ∧ c ≠ '/'
    ∧ c ≠ '>'

variable (hstop : SeesEnds stop v)

theorem PassesVisible.append {a b : Text} (ha : PassesVisible stop a)
    (hb : Passes stop b) : PassesVisible stop (a ++ b) where
  passes := ha.passes.append hb
  visible := by
    obtain ⟨blanks, c, rest, rfl, hblanks, hc⟩ := ha.visible
    exact ⟨blanks, c, rest ++ b, by simp, hblanks, hc⟩

include hstop

/-- Such a text may have blanks before it. -/
theorem PassesVisible.blanks {t : Text} (ht : PassesVisible stop t)
    (blanks : List Blank) :
    PassesVisible stop (blanks.map Subtype.val ++ t) := by
  induction blanks with
  | nil => exact ht
  | cons b blanks ih =>
    obtain ⟨lead, c, rest, heq, hlead, hc, hslash, hclose⟩ := ih.visible
    have hall : ∀ d ∈ b.val :: lead, isBlank d = true :=
      List.forall_mem_cons.2 ⟨b.2, hlead⟩
    have hbracket : b.val ∉ ['<', '>'] := not_mem_of_class (by decide) b.2
    constructor
    · intro s
      have hnone := hstop.visible (b.val :: lead) c (rest ++ s) hall hc hslash
        hclose
      have hwritten : b.val :: lead ++ c :: (rest ++ s)
          = b.val :: (blanks.map Subtype.val ++ t ++ s) := by
        rw [heq]
        simp
      rw [hwritten] at hnone
      rw [List.map_cons, List.cons_append, List.cons_append,
        until_cons hnone (by simpa [not_or] using hbracket)
          (isQuote_of_isBlank b.2), ih.passes, Option.map_map]
      rfl
    · exact ⟨b.val :: lead, c, rest, by rw [List.map_cons, List.cons_append,
        heq, List.cons_append], hall, hc, hslash, hclose⟩

/-- A quoted value is passed over, -/
theorem QuotedValue.passesVisible (q : QuotedValue) :
    PassesVisible stop q.written where
  passes := passes_quoted hstop q.quote_isQuote q.unquoted
  visible := by
    have hnot : q.quote ∉ ['/', '>'] :=
      not_mem_of_class (by decide) q.quote_isQuote
    simp only [List.mem_cons, List.not_mem_nil, or_false, not_or] at hnot
    exact ⟨[], q.quote, q.text ++ [q.quote], rfl, nofun,
      isBlank_of_isQuote q.quote_isQuote, hnot⟩

/-- and so is an attribute. -/
theorem Attribute.passesVisible (a : Attribute) :
    PassesVisible stop a.written := by
  have hchar {c : Char} (hc : isNameChar c = true) : isBlank c = false
      ∧ isQuote c = false ∧ c ∉ ['/', '>', '<'] :=
    ⟨isBlank_of_isNameChar hc, isQuote_of_isNameChar hc,
      not_mem_of_class (by decide) hc⟩
  have hname : PassesVisible stop a.name.text := by
    refine ⟨passes_visible hstop fun c hc => hchar (a.name.nameChar c hc), ?_⟩
    cases hcons : a.name.text with
    | nil => exact absurd hcons a.name.ne_nil
    | cons c rest =>
      obtain ⟨hblank, -, hmarks⟩ :=
        hchar (a.name.nameChar c (by rw [hcons]; exact List.mem_cons_self))
      simp only [List.mem_cons, List.not_mem_nil, or_false, not_or] at hmarks
      exact ⟨[], c, rest, rfl, nofun, hblank, hmarks.1, hmarks.2.1⟩
  refine (hname.blanks hstop [a.lead]).append ?_
  unfold ending
  cases a.assigned with
  | none => exact passes_nil
  | some q =>
    have hequals : PassesVisible stop ['='] := by
      refine ⟨passes_visible hstop (by decide), [], '=', [], rfl, nofun, ?_⟩
      decide
    have hvalue := (q.value.passesVisible hstop).blanks hstop q.after
    exact ((hequals.append hvalue.passes).blanks hstop q.before).passes

/-- The attributes of a tag are read as a whole. -/
theorem passesVisible_trimmed {parts : List Part} (hne : trimmed parts ≠ []) :
    PassesVisible stop ((trimmed parts).flatMap Part.written) := by
  have hfront (front : List Part) (a : Attribute) :
      PassesVisible stop ((front ++ [Part.attr a]).flatMap Part.written) := by
    induction front with
    | nil =>
      rw [List.nil_append, List.flatMap_singleton]
      exact a.passesVisible hstop
    | cons part front ih =>
      rw [List.cons_append, List.flatMap_cons]
      cases part with
      | blank b => exact ih.blanks hstop [b]
      | attr b => exact (b.passesVisible hstop).append ih.passes
  rcases (exists_trimmed parts).2 with hnil | ⟨front, a, heq⟩
  · exact absurd hnil hne
  · rw [heq]
    exact hfront front a

-- =========================================================== at the end

/-- Behind the name the attributes are read as anywhere, though no end is
looked for at their first blank. -/
theorem attributes?_trimmed {parts : List Part} (hne : trimmed parts ≠ [])
    (s : Text) :
    attributes? stop ((trimmed parts).flatMap Part.written ++ s)
      = (attributesUntil stop none s).map fun r =>
        ((trimmed parts).flatMap Part.written ++ r.1, r.2) := by
  obtain ⟨hpasses, blanks, c, rest, heq, hblanks, hc, hslash, hclose⟩ :=
    passesVisible_trimmed hstop hne
  have hnone := hstop.visible blanks c (rest ++ s) hblanks hc hslash hclose
  have hwritten : blanks ++ c :: (rest ++ s)
      = (trimmed parts).flatMap Part.written ++ s := by
    rw [heq]
    simp
  rw [hwritten] at hnone
  rw [← hpasses s]
  cases hkept : trimmed parts with
  | nil => exact absurd hkept hne
  | cons part kept =>
    obtain ⟨b, t, hpart, hb⟩ := part.exists_lead
    rw [hkept, List.flatMap_cons, hpart] at hnone
    rw [List.flatMap_cons, hpart]
    exact attributes?_eq_until hb hnone

/-- The attributes of a tag with a slash are read through its end. -/
theorem attributes?_slash {tag : OpenTag Part} (hslash : tag.slash = true)
    (s : Text) :
    ∃ ending, tag.attributeText ++ ending
        = tag.parts.flatMap Part.written ++ tag.ending
      ∧ attributes? stop (tag.parts.flatMap Part.written ++ (tag.ending ++ s))
        = some (tag.attributeText, ⟨ending, v⟩) := by
  obtain ⟨blanks, hparts⟩ := exists_written_trimmed tag.parts
  have hending : tag.ending = ['/', '>'] := by
    unfold OpenTag.ending
    rw [hslash, if_pos rfl]
  unfold OpenTag.attributeText
  rw [hending, hslash, if_pos rfl]
  cases hkept : trimmed tag.parts with
  | cons part kept =>
    have hne : trimmed tag.parts ≠ [] := by
      rw [hkept]
      exact List.cons_ne_nil _ _
    have hread := attributes?_trimmed hstop hne
      (blanks.map Subtype.val ++ '/' :: '>' :: s)
    rw [hkept] at hparts hread
    refine ⟨blanks.map Subtype.val ++ ['/', '>'], ?_, ?_⟩
    · rw [hparts, List.append_assoc]
    · rw [hparts, List.append_assoc]
      refine hread.trans ?_
      rw [until_slash hstop isBlank_of_mem, Option.map_some, List.append_nil]
  | nil =>
    rw [hkept, List.flatMap_nil, List.nil_append] at hparts
    refine ⟨(blanks.map Subtype.val).drop 1 ++ ['/', '>'], ?_, ?_⟩
    · rw [hparts, ← List.append_assoc, List.take_append_drop]
    · rw [hparts]
      exact attributes?_blanks_slash hstop isBlank_of_mem s

/-- Those of a tag without a slash are read through it if `>` is an end. -/
theorem attributes?_open {tag : OpenTag Part} (hslash : tag.slash = false)
    (s : Text) :
    attributes? stop (tag.parts.flatMap Part.written ++ (tag.ending ++ s))
      = (stop ('>' :: s)).map fun h => (tag.attributeText, h) := by
  obtain ⟨blanks, hparts⟩ := exists_written_trimmed tag.parts
  have hending : tag.ending = ['>'] := by
    unfold OpenTag.ending
    rw [hslash, if_neg Bool.false_ne_true]
  unfold OpenTag.attributeText
  rw [hending, hslash, if_neg Bool.false_ne_true, hparts]
  by_cases hne : trimmed tag.parts = []
  · rw [hne, List.flatMap_nil, List.nil_append]
    exact attributes?_blanks_close hstop isBlank_of_mem s
  · rw [List.append_assoc]
    refine (attributes?_trimmed hstop hne _).trans ?_
    show (attributesUntil stop none (blanks.map Subtype.val ++ '>' :: s)).map
      _ = _
    rw [until_close hstop isBlank_of_mem, Option.map_map]
    rfl

end

/-- Behind the name of a tag it is prolonged by nothing. -/
theorem OpenTag.isTagNameChar_behind (tag : OpenTag Part) (s : Text) :
    ∀ c ∈ (tag.parts.flatMap Part.written ++ (tag.ending ++ s)).head?,
      isTagNameChar c = false := by
  have hfollows : MayFollow
      (tag.parts.flatMap Part.written ++ (tag.ending ++ s)) := by
    cases tag.parts with
    | nil => exact tag.mayFollow_ending s
    | cons part parts =>
      rw [List.flatMap_cons, List.append_assoc]
      exact mayFollow_written part _
  intro c hc
  rcases hfollows c hc with hblank | rfl | rfl
  · exact eq_false_of_isBlank (by decide +kernel) hblank
  · decide +kernel
  · decide +kernel

end ComponentMarkdown.TaggedText
