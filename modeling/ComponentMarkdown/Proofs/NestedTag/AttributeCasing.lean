/-
What attribute casing leaves alone in a tag. Its quoted values and its
expressions (`Value`) are no names, but the scanner passes over quotes and
not over braces, so it may read a name within one of them: behind a blank in
an expression, or in a quoted value once an apostrophe in an expression has
been paired with a quote further on. A value stands in the lowered tag as it
stood exactly if no known name in mixed case starts in it outside quoted
values, as the quotes of the tag pair up from its start
(`Value.stays_iff`).

A name holds no character with a meaning of its own in a tag, and a value
starts and ends with one. So a name that starts in a value ends there, and
one that starts before a value ends before it (`exists_append_of_mark`).
-/
import ComponentMarkdown.Proofs.NestedTag.Grammar
import ComponentMarkdown.Proofs.Rule.CasingExtent
import ComponentMarkdown.Proofs.TaggedText.Attributes

namespace ComponentMarkdown

open Markup Text

namespace MixedCaseName

-- ============================================================== names

/-- A known name holds no mark. -/
theorem not_mem_marks_of_known {name : Text} (h : name ∈ known) :
    ∀ c ∈ name, c ∉ TagMode.marks := by
  have hall : ∀ name ∈ known, ∀ c ∈ name, c ∉ TagMode.marks := by decide
  exact hall name h

theorem not_mem_marks_of_lead {lead : Text} {c : Char}
    (hc : isBlank c = true) (hlead : lead = [c] ∨ lead = [c, ':']) :
    ∀ d ∈ lead, d ∉ TagMode.marks := by
  have hblank : c ∉ TagMode.marks := not_mem_of_class (by decide) hc
  rcases hlead with rfl | rfl
  · exact List.forall_mem_singleton.2 hblank
  · exact List.forall_mem_cons.2 ⟨hblank, by decide⟩

/-- No character of a name has a meaning of its own in a tag. -/
theorem not_mem_marks {s : Text} {m : MixedCaseName} (h : ofText? s = some m) :
    ∀ c ∈ m.lead ++ m.name, c ∉ TagMode.marks := by
  obtain ⟨c, -, hc, hlead, hname, -⟩ := ofText?_spec h
  exact List.forall_mem_append.2
    ⟨not_mem_marks_of_lead hc hlead, not_mem_marks_of_known hname⟩

/-- A name in front of a mark is known whatever follows the mark. -/
theorem heads_append_iff {y : Text} {d : Char} (hd : d ∈ TagMode.marks)
    (rest : Text) : Heads (y ++ d :: rest) ↔ Heads (y ++ [d]) := by
  have hends (z rest rest' : Text) :
      endsBefore (z ++ d :: rest) = endsBefore (z ++ d :: rest') := by
    cases z <;> rfl
  have hall (rest rest' : Text) (h : Heads (y ++ d :: rest)) :
      Heads (y ++ d :: rest') := by
    obtain ⟨lead, name, after, c, heq, hc, hlead, hname, hend⟩ := h
    have hmarks : ∀ b ∈ lead ++ name, b ∉ TagMode.marks :=
      List.forall_mem_append.2
        ⟨not_mem_marks_of_lead hc hlead, not_mem_marks_of_known hname⟩
    obtain ⟨z, rfl, rfl⟩ :=
      NestedTag.exists_append_of_mark hmarks hd heq.symm
    refine ⟨lead, name, z ++ d :: rest', c, List.append_assoc .., hc, hlead,
      hname, ?_⟩
    rw [hends z rest' rest, hend]
  exact ⟨hall rest [], hall [] rest⟩

/-- A name is read exactly where one stands. -/
theorem exists_ofText?_iff {s : Text} : (∃ m, ofText? s = some m) ↔ Heads s := by
  rw [← Option.isSome_iff_exists, ← Option.ne_none_iff_isSome, Ne,
    ofText?_eq_none_iff, Classical.not_not]

/-- A name never is its own spelling in small letters. -/
theorem lowered_ne {s : Text} {m : MixedCaseName} (h : ofText? s = some m) :
    m.lowered ≠ m.lead ++ m.name := by
  obtain ⟨-, -, -, -, hname, -⟩ := ofText?_spec h
  obtain ⟨-, -, c, hc, hupper⟩ := known_spec hname
  intro heq
  have hsame : asciiLower m.name = m.name := List.append_cancel_left heq
  rw [← hsame] at hc
  obtain ⟨d, -, rfl⟩ := List.mem_map.1 (List.mem_of_mem_take hc)
  rw [isUpper_toLower] at hupper
  cases hupper

/-- What is read is a blank and visible characters that are no quotes. -/
theorem exists_taken_eq_cons {s : Text} {m : MixedCaseName}
    (h : ofText? s = some m) :
    ∃ c w, m.lead ++ m.name = c :: w ∧ isBlank c = true
      ∧ ∀ d ∈ w, isBlank d = false ∧ isQuote d = false := by
  obtain ⟨c, -, hc, hlead, hname, -⟩ := ofText?_spec h
  obtain ⟨hvisible, -, -⟩ := known_spec hname
  rcases hlead with hlead | hlead <;> rw [hlead]
  · exact ⟨c, m.name, rfl, hc, hvisible⟩
  · exact ⟨c, ':' :: m.name, rfl, hc,
      List.forall_mem_cons.2 ⟨by decide, hvisible⟩⟩

/-- The scanner comes to every name outside quoted values. -/
theorem visits_iff {r : Text} (hr : Heads r) (s : Text) :
    scanner.Visits s r ↔ Outside s r := by
  have hsome : ((ofText? r).map fun m => Hit.mk (m.lead ++ m.name) m).isSome
      = true := by
    rw [Option.isSome_map, Option.isSome_iff_exists, exists_ofText?_iff]
    exact hr
  refine passesQuoted_scanner.visits_iff ?_ hsome s
  intro s h hs
  obtain ⟨m, hm, rfl⟩ := Option.map_eq_some_iff.1 hs
  obtain ⟨c, w, htaken, hc, hw⟩ := exists_taken_eq_cons hm
  obtain ⟨after, rfl⟩ := taken_isPrefix hm
  have hquote := quoted?_eq_none (isQuote_of_isBlank hc) (w ++ after)
  rw [List.drop_left, htaken, List.cons_append]
  constructor
  · refine (outside_of_unquoted hquote).2 (Or.inr ?_)
    exact outside_append (fun d hd => (hw d hd).2) after
  · intro r hout hread
    rcases (outside_of_unquoted hquote).1 hout with rfl | hout
    · exact Or.inl rfl
    · rcases outside_visible hw hout with ⟨d, rest, rfl, hd⟩ | hout
      · rw [Option.isSome_map, Option.isSome_iff_exists,
          exists_ofText?_iff] at hread
        exact absurd hread (not_heads_visible hd rest)
      · exact Or.inr hout

end MixedCaseName

namespace NestedTag

-- ============================================================== values

/-- A quoted value or an expression, at its place in a tag. -/
structure Value (tag : NestedTag) where
  before : List Part
  part : Part
  after : List Part
  place : tag.parts = before ++ part :: after
  isValue : part.IsValue

namespace Value

variable {tag : NestedTag}

theorem written_eq (v : tag.Value) :
    tag.written = tag.upTo v.before ++ (v.part.written ++ tag.behind v.after) :=
  written_of_parts v.place

/-- Whether a value stands in the lowered tag where it stood, byte for
byte. -/
def Stays (v : tag.Value) : Prop :=
  ∃ x y, MixedCaseName.lowerTag tag.written = x ++ (v.part.written ++ y)
    ∧ x.length = (tag.upTo v.before).length

/-- Whether no known name in mixed case starts in a value outside quoted
values, as the quotes of the tag pair up from its start. -/
def Unread (v : tag.Value) : Prop :=
  ∀ x, x <:+ v.part.written → Outside tag.written (x ++ tag.behind v.after) →
    ¬ MixedCaseName.Heads x

/-- A name that starts in a value is one whatever follows the value. -/
theorem heads_append_iff (v : tag.Value) {x : Text} (hx : x ≠ [])
    (hsuffix : x <:+ v.part.written) (rest : Text) :
    MixedCaseName.Heads (x ++ rest) ↔ MixedCaseName.Heads x := by
  obtain ⟨y, d, hd, rfl⟩ := v.isValue.exists_append_mark hx hsuffix
  rw [List.append_assoc]
  exact MixedCaseName.heads_append_iff hd rest

/-- A name that starts in a value ends there. -/
theorem exists_append_of_name (v : tag.Value) {x : Text} (hx : x ≠ [])
    (hsuffix : x <:+ v.part.written) {m : MixedCaseName}
    (hm : MixedCaseName.ofText? (x ++ tag.behind v.after) = some m) :
    ∃ z, x = (m.lead ++ m.name) ++ z := by
  obtain ⟨after, hafter⟩ := MixedCaseName.taken_isPrefix hm
  obtain ⟨y, d, hd, rfl⟩ := v.isValue.exists_append_mark hx hsuffix
  rw [List.append_assoc y] at hafter
  obtain ⟨z, rfl, -⟩ := exists_append_of_mark
    (MixedCaseName.not_mem_marks hm) hd hafter
  exact ⟨z ++ [d], List.append_assoc ..⟩

/-- In a value that stays, what becomes of a place starts with what stood
there. -/
theorem Stays.exists_lowerTag {v : tag.Value} (h : v.Stays) {x : Text}
    (hsuffix : x <:+ v.part.written)
    (hvisits : MixedCaseName.scanner.Visits tag.written
      (x ++ tag.behind v.after)) :
    ∃ y, MixedCaseName.lowerTag (x ++ tag.behind v.after) = x ++ y := by
  obtain ⟨u, hu, hlength⟩ :=
    hvisits.exists_text MixedCaseName.length_spliced_name
  obtain ⟨before, y, hstays, hplace⟩ := h
  obtain ⟨p, hp⟩ := hsuffix
  have htext : u ++ MixedCaseName.lowerTag (x ++ tag.behind v.after)
      = (before ++ p) ++ (x ++ y) := by
    calc u ++ MixedCaseName.lowerTag (x ++ tag.behind v.after)
        = MixedCaseName.lowerTag tag.written := hu.symm
      _ = before ++ (v.part.written ++ y) := hstays
      _ = (before ++ p) ++ (x ++ y) := by simp [← hp]
  refine ⟨y, List.append_inj_right htext ?_⟩
  rw [v.written_eq, ← hp] at hlength
  simp only [List.length_append] at hlength ⊢
  omega

/-- A name that is read in a value is lowered there. -/
theorem Stays.unread {v : tag.Value} (h : v.Stays) : v.Unread := by
  intro x hsuffix hout hheads
  have hx : x ≠ [] := by
    rintro rfl
    exact MixedCaseName.ofText?_eq_none_iff.1 rfl hheads
  have hread := (v.heads_append_iff hx hsuffix (tag.behind v.after)).2 hheads
  obtain ⟨m, hm⟩ := MixedCaseName.exists_ofText?_iff.2 hread
  obtain ⟨z, hz⟩ := v.exists_append_of_name hx hsuffix hm
  obtain ⟨y, hy⟩ := h.exists_lowerTag hsuffix
    ((MixedCaseName.visits_iff hread tag.written).2 hout)
  -- the name stands there in small letters, and as it stood
  rw [MixedCaseName.lowerTag_of_name hm, hz,
    List.append_assoc (m.lead ++ m.name) z y] at hy
  have hlength : m.lowered.length = (m.lead ++ m.name).length := by
    simp only [MixedCaseName.lowered, List.length_append, length_asciiLower]
  exact MixedCaseName.lowered_ne hm (List.append_inj_left hy hlength)

/-- A name ends before a value or starts behind it, unless it starts in
it. -/
theorem Unread.disjoint {v : tag.Value} (h : v.Unread) {r : Text}
    {m : MixedCaseName} (hm : MixedCaseName.ofText? r = some m)
    (hvisits : MixedCaseName.scanner.Visits tag.written r) :
    r.length ≤ (tag.behind v.after).length
      ∨ v.part.written.length + (tag.behind v.after).length
        + (m.lead ++ m.name).length ≤ r.length := by
  have hread := MixedCaseName.exists_ofText?_iff.1 ⟨m, hm⟩
  have hout := (MixedCaseName.visits_iff hread tag.written).1 hvisits
  have hsuffix := hvisits.isSuffix
  rw [v.written_eq] at hsuffix
  rcases suffix_append_cases hsuffix with ⟨x, -, -, rfl⟩ | hsuffix
  · right
    obtain ⟨first, inner, last, hwritten, hfirst, -⟩ :=
      v.isValue.exists_marks
    obtain ⟨after, hafter⟩ := MixedCaseName.taken_isPrefix hm
    rw [hwritten, List.cons_append] at hafter
    obtain ⟨z, rfl, -⟩ := exists_append_of_mark
      (MixedCaseName.not_mem_marks hm) hfirst hafter
    simp only [List.length_append]
    omega
  · rcases suffix_append_cases hsuffix with ⟨x, hx, hin, rfl⟩ | hsuffix
    · exact absurd ((v.heads_append_iff hx hin _).1 hread) (h x hin hout)
    · exact Or.inl hsuffix.length_le

/-- If no name is read in a value, none reaches into it. -/
theorem Unread.stays {v : tag.Value} (h : v.Unread) : v.Stays := by
  have hleaves : MixedCaseName.scanner.Leaves
      (fun h => Scanner.substitution h (h.value.map MixedCaseName.lowered))
      (tag.upTo v.before) v.part.written (tag.behind v.after) := by
    rw [Scanner.leaves_iff, ← v.written_eq]
    rintro r ⟨taken, value⟩ hvisits hscan hcount
    rw [Ne, Scanner.count_substitution_eq_zero_iff] at hcount
    cases value with
    | none => exact absurd rfl hcount
    | some name =>
      obtain ⟨m, hm, heq⟩ := Option.map_eq_some_iff.1
        (MixedCaseName.passesQuoted_scanner.scan_of_some hscan)
      cases heq
      exact h.disjoint hm hvisits
  have htext := hleaves.exists_text_at MixedCaseName.length_spliced_name
  rw [← v.written_eq] at htext
  exact htext

/-- A value stays exactly if no name is read in it. -/
theorem stays_iff (v : tag.Value) : v.Stays ↔ v.Unread :=
  ⟨Stays.unread, Unread.stays⟩

end Value

-- ------------------------------------------------------ quoted values

/-- Whether a part is a quoted value. -/
def Part.IsQuoted : Part → Prop
  | .quoted _ => True
  | _ => False

/-- Whether quotes pair up in a part by itself: it is no expression that
holds one. -/
def Part.Unquoted : Part → Prop
  | .char _ _ => True
  | .quoted _ => True
  | .braces expression =>
    ∀ c ∈ expression.flatMap Inner.written, isQuote c = false

/-- Behind a part in which quotes pair up, the places outside quoted values
are those of what follows. -/
theorem Part.Unquoted.outside_cases {part : Part} (h : part.Unquoted)
    {b r : Text} (hr : Outside (part.written ++ b) r) :
    b.length < r.length ∨ Outside b r := by
  cases part with
  | char c plain =>
    refine outside_append_cases (List.forall_mem_singleton.2 ?_) hr
    rw [isQuote_eq_false_iff]
    constructor
    · rintro rfl
      exact absurd plain (by decide)
    · rintro rfl
      exact absurd plain (by decide)
  | quoted value =>
    change Outside (value.written ++ b) r at hr
    rcases (outside_of_quoted (value.quoted?_written b)).1 hr with rfl | hr
    · left
      have hpos : 0 < value.written.length := Nat.succ_pos _
      rw [List.length_append]
      omega
    · rw [List.drop_left] at hr
      exact Or.inr hr
  | braces expression =>
    refine outside_append_cases (List.forall_mem_cons.2 ⟨by decide, ?_⟩) hr
    exact List.forall_mem_append.2 ⟨h, by decide⟩

/-- And so they are behind several of them. -/
theorem outside_parts_cases {parts : List Part}
    (h : ∀ p ∈ parts, p.Unquoted) {b r : Text}
    (hr : Outside (parts.flatMap Part.written ++ b) r) :
    b.length < r.length ∨ Outside b r := by
  induction parts with
  | nil => exact Or.inr hr
  | cons part parts ih =>
    obtain ⟨hpart, hparts⟩ := List.forall_mem_cons.1 h
    rw [List.flatMap_cons, List.append_assoc] at hr
    rcases hpart.outside_cases hr with hlonger | hr
    · left
      rw [List.length_append] at hlonger
      omega
    · exact ih hparts hr

namespace Value

variable {tag : NestedTag} {v : tag.Value}

/-- Where no expression before a value holds quotes, quotes pair up from the
value as they do from the start of the tag. -/
theorem outside_cases (hbefore : ∀ p ∈ v.before, p.Unquoted) {r : Text}
    (hr : Outside tag.written r) :
    (v.part.written ++ tag.behind v.after).length < r.length
      ∨ Outside (v.part.written ++ tag.behind v.after) r := by
  have hstart : ∀ c ∈ '<' :: tag.name.text, isQuote c = false := by
    refine List.forall_mem_cons.2 ⟨by decide, fun c hc => ?_⟩
    have hnot : c ∉ ['"', '\''] :=
      not_mem_of_class (by decide) (tag.name.nameChar c hc)
    rw [isQuote_eq_false_iff]
    simpa [not_or] using hnot
  have hwritten : tag.written = ('<' :: tag.name.text)
      ++ (v.before.flatMap Part.written
        ++ (v.part.written ++ tag.behind v.after)) := by
    rw [v.written_eq, upTo, List.cons_append, List.append_assoc]
    rfl
  rw [hwritten] at hr
  rcases outside_append_cases hstart hr with hlonger | hr
  · left
    rw [List.length_append] at hlonger
    omega
  · exact outside_parts_cases hbefore hr

/-- Quoted values stay where no expression before them holds quotes. -/
theorem stays_of_unquoted (hquoted : v.part.IsQuoted)
    (hbefore : ∀ p ∈ v.before, p.Unquoted) : v.Stays := by
  refine Unread.stays fun x hsuffix hout hheads => ?_
  have hle := hsuffix.length_le
  rcases outside_cases hbefore hout with hlonger | hvalue
  · rw [List.length_append, List.length_append] at hlonger
    omega
  -- a name starts neither with the quote nor behind it in the value
  cases hpart : v.part with
  | char c plain =>
    rw [hpart] at hquoted
    cases hquoted
  | braces expression =>
    rw [hpart] at hquoted
    cases hquoted
  | quoted value =>
    rw [hpart] at hvalue
    rcases (outside_of_quoted (value.quoted?_written _)).1 hvalue with
      hwhole | hbehind
    · rw [List.append_cancel_right hwhole] at hheads
      exact MixedCaseName.not_heads_visible
        (isBlank_of_isQuote value.quote_isQuote) _ hheads
    · have hlonger := hbehind.isSuffix.length_le
      rw [List.drop_left, List.length_append] at hlonger
      have hx : x = [] := List.eq_nil_of_length_eq_zero (by omega)
      rw [hx] at hheads
      exact MixedCaseName.ofText?_eq_none_iff.1 rfl hheads

end Value

end NestedTag

/-- The rule lowers names in the opening tags of a text one by one. Each of
them is written in quoted values, expressions and other characters. A value
or an expression stands in the lowered tag as it stood exactly if no known
name in mixed case starts in it outside quoted values; no such name starts
in a quoted value if the expressions before it hold no quotes. -/
theorem values_apply_attributeCasing (s : Text) :
    (Rule.attributeCasing.apply s).text
        = (openingTags.pieces s).flatMap
          (editedPiece MixedCaseName.convertTag)
      ∧ (∀ t ∈ openingTagsOf s, ∃ tag : NestedTag, tag.written = t)
      ∧ ∀ (tag : NestedTag) (v : tag.Value), (v.Stays ↔ v.Unread)
        ∧ (v.part.IsQuoted → (∀ p ∈ v.before, p.Unquoted) → v.Stays) := by
  refine ⟨?_, fun t => NestedTag.exists_written_of_mem, fun tag v =>
    ⟨v.stays_iff, NestedTag.Value.stays_of_unquoted⟩⟩
  exact text_editOpeningTags
    (fun _ => MixedCaseName.convertTag_of_count_zero) s

/-- A name may start in an expression, and in a quoted value behind one. -/
theorem text_apply_attributeCasing_expression :
    openingTag? "<Frame style=\x7b\x7b border: frameBorder \x7d\x7d>".toList
        = some "<Frame style=\x7b\x7b border: frameBorder \x7d\x7d>".toList
      ∧ (Rule.attributeCasing.apply
          "<Frame style=\x7b\x7b border: frameBorder \x7d\x7d>".toList).text
        = "<Frame style=\x7b\x7b border: frameborder \x7d\x7d>".toList
      ∧ (Rule.attributeCasing.apply
          "<A x=\x7bit's\x7d t=\"don't frameBorder here\">".toList).text
        = "<A x=\x7bit's\x7d t=\"don't frameborder here\">".toList := by
  decide +kernel

end ComponentMarkdown
