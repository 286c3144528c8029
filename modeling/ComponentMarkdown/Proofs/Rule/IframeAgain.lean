/-
The rule for iframes, applied to what it made. An opening and a closing tag
stand where a self-closing iframe stood, and all attributes with them. What
is left of its own is a slash at their end: the `>` put behind it makes the
tag a self-closing one again. What else may be found has been in the text
before, within the quoted values of what the rule took, where it did not look
(`count_apply_iframeClosing_twice`).

That nothing else comes or goes is a matter of quotes. A reader that comes
from outside to a tag that the rule takes stops at its `<`, unless it stands
in a quoted value; then it stands in one at the end of the tag as well, since
the attributes leave no two states the same, and what is put there is hidden
from it (`closes_closed`). The same holds from a place within the attributes
on (`Takes.heads_inside_iff`).
-/
import ComponentMarkdown.Proofs.Markup.QuoteState
import ComponentMarkdown.Proofs.Rule.IframeClosing
import ComponentMarkdown.Proofs.Splice.Extent

namespace ComponentMarkdown

open Markup

namespace SelfClosingIframe

-- ============================================================== heads

/-- Whether a text goes on as a self-closing iframe does behind its name. -/
def Ends (s : Text) : Prop :=
  (∃ after, s = '/' :: '>' :: after)
    ∨ ∃ c rest, s = c :: rest ∧ isBlank c = true ∧ Closes none rest

theorem ends_cons {c : Char} {s : Text} :
    Ends (c :: s) ↔ (c = '/' ∧ s.head? = some '>')
      ∨ (isBlank c = true ∧ Closes none s) := by
  constructor
  · rintro (⟨after, h⟩ | ⟨d, rest, h, hd, hrest⟩)
    · cases h
      exact Or.inl ⟨rfl, rfl⟩
    · cases h
      exact Or.inr ⟨hd, hrest⟩
  · rintro (⟨rfl, hhead⟩ | ⟨hc, hs⟩)
    · obtain ⟨after, rfl⟩ := List.head?_eq_some_iff.1 hhead
      exact Or.inl ⟨after, rfl⟩
    · exact Or.inr ⟨c, s, rfl, hc, hs⟩

/-- A self-closing iframe starts with its name, and an end follows. -/
theorem heads_iff {s : Text} : Heads s ↔ ∃ t, s = opening ++ t ∧ Ends t := by
  constructor
  · rintro ⟨attributes, after, rfl, ha, hlead⟩
    refine ⟨attributes ++ '/' :: '>' :: after, by simp, ?_⟩
    cases attributes with
    | nil => exact Or.inl ⟨after, rfl⟩
    | cons c a =>
      have hc : isBlank c = true := hlead c rfl
      have hfrom := (attributeTextFrom_cons.1 ha.fromOutside).2
      rw [quoteBehind_none, isQuote_of_isBlank hc] at hfrom
      exact Or.inr ⟨c, _, rfl, hc, a, after, rfl, hfrom⟩
  · rintro ⟨t, rfl, ⟨after, rfl⟩ | ⟨c, rest, rfl, hc, a, after, rfl, ha⟩⟩
    · exact ⟨[], after, by simp, .nil, nofun⟩
    · have hblank : AttributeText [c] :=
        attributeText_of_blank (List.forall_mem_singleton.2 hc)
      refine ⟨c :: a, after, by simp, hblank.append ha, ?_⟩
      rintro _ ⟨⟩
      exact hc

theorem heads_opening_iff {t : Text} : Heads (opening ++ t) ↔ Ends t := by
  rw [heads_iff]
  constructor
  · rintro ⟨u, hu, hends⟩
    rw [List.append_cancel_left hu]
    exact hends
  · exact fun h => ⟨t, rfl, h⟩

theorem head_of_heads {s : Text} (h : Heads s) : s.head? = some '<' := by
  obtain ⟨t, rfl, -⟩ := heads_iff.1 h
  rfl

theorem not_heads_cons {c : Char} (hc : c ≠ '<') (s : Text) :
    ¬ Heads (c :: s) :=
  fun h => hc (Option.some.inj (head_of_heads h))

-- ======================================================== what is taken

/-- What the rule takes: the opening, the attributes it keeps, and blanks
before the end. -/
structure Takes (s : Text) (h : Hit Text) (kept blanks rest : Text) :
    Prop where
  written : s = opening ++ (kept ++ (blanks ++ '/' :: '>' :: rest))
  behind : s.drop h.taken.length = rest
  value : h.value.trimEnd = kept
  attributes : AttributeText kept
  blank : ∀ c ∈ blanks, isBlank c = true
  ends_iff : ∀ z, Ends (kept ++ '>' :: z) ↔ kept.getLast? = some '/'

/-- No end starts with the closing bracket. -/
theorem not_ends_close (z : Text) : ¬ Ends ('>' :: z) := by
  rw [ends_cons]
  rintro (⟨h, -⟩ | ⟨h, -⟩)
  · cases h
  · exact absurd h (by decide)

/-- The end of a self-closing iframe, as the rule reads it. -/
def stop? (s : Text) : Option (Hit Unit) := (selfClose? s).map (⟨·, ()⟩)

theorem stop?_ne_none {blanks : Text} (h : ∀ c ∈ blanks, isBlank c = true)
    (s : Text) : stop? (blanks ++ '/' :: '>' :: s) ≠ none := by
  have hslash := (seesEnds_selfClose ()).slash blanks s h
  unfold stop?
  rw [hslash]
  exact Option.some_ne_none _

theorem stop?_blank {c : Char} {s : Text} (hc : isBlank c = true)
    (hs : stop? s ≠ none) : stop? (c :: s) ≠ none := by
  obtain ⟨e, he⟩ := Option.ne_none_iff_exists'.1 hs
  obtain ⟨t, ht, -⟩ := Option.map_eq_some_iff.1 he
  obtain ⟨blanks, after, hblanks, rfl⟩ := selfClose?_eq_some ht
  exact stop?_ne_none (List.forall_mem_cons.2 ⟨hc, hblanks⟩) after

/-- Attributes that were read end in a slash if `>` behind them makes a
self-closing tag. -/
theorem ends_trimEnd_iff {s a : Text} {e : Hit Unit}
    (hs : attributes? stop? s = some (a, e)) (z : Text) :
    Ends (a.trimEnd ++ '>' :: z) ↔ a.trimEnd.getLast? = some '/' := by
  cases s with
  | nil => cases hs
  | cons c s =>
    rw [attributes?] at hs
    split at hs
    · rename_i hc
      obtain ⟨⟨b, f⟩, hread, he⟩ := Option.map_eq_some_iff.1 hs
      cases he
      have hlast := isBlank_getLast_of_until (fun _ _ => stop?_blank)
        isQuoteState_none hread
      have hslash (t : Text) : stop? ('/' :: '>' :: t) ≠ none :=
        stop?_ne_none (List.forall_mem_nil _) t
      have hcloses := closes_of_until_iff hslash isQuoteState_none hread z
      rcases List.eq_nil_or_concat b with rfl | ⟨b, d, rfl⟩
      · have htrim : Text.trimEnd [c] = [] :=
          Text.trimEnd_eq_nil_iff.2 (List.forall_mem_singleton.2 hc)
        rw [htrim]
        exact iff_of_false (not_ends_close z) (by simp)
      · rw [List.concat_eq_append] at hlast hcloses ⊢
        have hd : isBlank d = false := hlast d (by simp)
        have hlead : c ≠ '/' := by
          rintro rfl
          exact absurd hc (by decide)
        have hgot : (c :: (b ++ [d])).getLast? = some d :=
          List.getLast?_concat (l := c :: b)
        rw [← List.cons_append, Text.trimEnd_concat _ hd, List.cons_append,
          List.cons_append, ends_cons, hcloses, hc, hgot]
        simp [hlead]
    · obtain ⟨f, -, he⟩ := Option.map_eq_some_iff.1 hs
      cases he
      exact iff_of_false (not_ends_close z) (by rintro ⟨⟩)

/-- What the scanner takes is a name, attributes, and the slash and bracket
behind blanks. -/
theorem exists_takes {s : Text} {h : Hit Text} (hs : scanner.scan s = some h) :
    ∃ kept blanks rest, Takes s h kept blanks rest := by
  obtain ⟨⟨a, e⟩, hr, rfl⟩ := Option.map_eq_some_iff.1 hs
  unfold ofText? at hr
  split at hr
  · rename_i hp
    obtain ⟨t, rfl⟩ := List.isPrefixOf_iff_prefix.1 hp
    rw [List.drop_left] at hr
    obtain ⟨ha, -, r, rfl, hstop⟩ := attributeText_of_attributes? hr
    obtain ⟨ending, hending, rfl⟩ := Option.map_eq_some_iff.1 hstop
    obtain ⟨blanks, after, hblanks, rfl⟩ := selfClose?_eq_some hending
    have hread := (seesEnds_selfClose ()).slash blanks after hblanks
    rw [hending] at hread
    cases hread
    obtain ⟨trailing, htrailing, htrim⟩ := Text.exists_trimEnd_append a
    refine ⟨a.trimEnd, trailing ++ blanks, after, ?_, ?_, rfl, ha.trimEnd,
      List.forall_mem_append.2 ⟨htrailing, hblanks⟩, ends_trimEnd_iff hr⟩
    · rw [List.append_assoc, ← List.append_assoc a.trimEnd, ← htrim]
    · have hwritten : opening ++ (a ++ (blanks ++ '/' :: '>' :: after))
          = opening ++ a ++ (blanks ++ ['/', '>']) ++ after := by simp
      rw [hwritten, List.drop_left]
  · cases hr

-- ========================================================= what is made

/-- The text with all its iframes closed. -/
def closed (s : Text) : Text := (Rule.iframeClosing.apply s).text

theorem closed_nil : closed [] = [] := scanner.splice_nil _

theorem closed_of_none {c : Char} {s : Text}
    (hs : scanner.scan (c :: s) = none) : closed (c :: s) = c :: closed s :=
  scanner.splice_of_none hs _

/-- What is taken is closed, and the rest after it. -/
theorem closed_of_takes {s : Text} {h : Hit Text}
    (hs : scanner.scan s = some h) {kept blanks rest : Text}
    (ht : Takes s h kept blanks rest) :
    closed s
      = opening ++ (kept ++ '>' :: ("</iframe>".toList ++ closed rest)) := by
  have hspliced : Scanner.spliced (fun h => Scanner.substitution h
      (some (expanded h.value))) h = expanded h.value :=
    Scanner.spliced_substitution (fun h => some (expanded h.value)) h
  have hclosing : "></iframe>".toList = '>' :: "</iframe>".toList := by decide
  show (scanner.splice _ s).text = _
  rw [scanner.splice_of_hit hs, hspliced, ht.behind, expanded, ht.value,
    hclosing]
  simp only [List.append_assoc, List.cons_append]
  rfl

/-- A tag starts where one started. -/
theorem head_closed (s : Text) : (closed s).head? = s.head? := by
  cases hs : scanner.scan s with
  | some h =>
    obtain ⟨kept, blanks, rest, ht⟩ := exists_takes hs
    rw [closed_of_takes hs ht, ht.written]
    rfl
  | none =>
    cases s with
    | nil => rw [closed_nil]
    | cons c s => rw [closed_of_none hs]; rfl

/-- Any other character is copied. -/
theorem closed_cons {c : Char} (hc : c ≠ '<') (s : Text) :
    closed (c :: s) = c :: closed s :=
  closed_of_none (scan_eq_none_iff.2 (not_heads_cons hc s))

/-- Where no tag starts, the text stays. -/
theorem eq_append_of_closed_eq {w : Text} (hw : '<' ∉ w) {s t : Text}
    (h : closed s = w ++ t) : ∃ u, s = w ++ u ∧ t = closed u := by
  induction w generalizing s with
  | nil => exact ⟨s, rfl, h.symm⟩
  | cons c w ih =>
    rw [List.mem_cons, not_or] at hw
    have hhead := head_closed s
    rw [h, List.cons_append, List.head?_cons] at hhead
    obtain ⟨s, rfl⟩ := List.head?_eq_some_iff.1 hhead.symm
    rw [closed_cons (Ne.symm hw.1), List.cons_append] at h
    obtain ⟨u, rfl, hu⟩ := ih hw.2 (List.cons.inj h).2
    exact ⟨u, rfl, hu⟩

/-- What follows the attributes, in the text or in what is made of it, is
hidden in a quoted value. -/
theorem closes_behind_iff {q : Char} (hq : isQuote q = true)
    {blanks rest new : Text} (hblanks : ∀ c ∈ blanks, isBlank c = true)
    (hrest : Closes (some q) new ↔ Closes (some q) rest) :
    Closes (some q) ('>' :: ("</iframe>".toList ++ new))
      ↔ Closes (some q) (blanks ++ '/' :: '>' :: rest) := by
  have hhidden {w : Text} (hw : ∀ c ∈ w, isQuote c = false) (t : Text) :
      Closes (some q) (w ++ t) ↔ Closes (some q) t := by
    refine closes_append_of_not_mem fun hmem => ?_
    rw [hw q hmem] at hq
    cases hq
  have hnew := hhidden (w := '>' :: "</iframe>".toList) (by decide) new
  have hold := hhidden (w := blanks ++ ['/', '>'])
    (List.forall_mem_append.2
      ⟨fun c hc => isQuote_of_isBlank (hblanks c hc), by decide⟩) rest
  rw [List.cons_append] at hnew
  rw [List.append_assoc] at hold
  exact hnew.trans (hrest.trans hold.symm)

/-- A reader that stands at a tag, outside quoted values, sees the tag. One
in a quoted value does not, nor what is put in its place. -/
theorem closes_closed {quote : Option Char} (hstate : IsQuoteState quote)
    (s : Text) : Closes quote (closed s) ↔ Closes quote s := by
  induction s using scanner.induction_on generalizing quote with
  | nil => rw [closed_nil]
  | hit s h hs ih =>
    obtain ⟨kept, blanks, rest, ht⟩ := exists_takes hs
    rw [ht.behind] at ih
    rw [closed_of_takes hs ht, ht.written]
    cases quote with
    | none =>
      have hopen (t : Text) : ¬ Closes none (opening ++ t) := by
        have hopening : opening = '<' :: "iframe".toList := by decide
        rw [hopening, List.cons_append, closes_cons]
        simp
      exact iff_of_false (hopen _) (hopen _)
    | some q =>
      have hkept : quoteAfter none (opening ++ kept) = none := by
        rw [quoteAfter_append]
        exact quoteAfter_of_attributeTextFrom ht.attributes.fromOutside
      obtain ⟨p, hp, hbehind⟩ := exists_quoteAfter_eq_some isQuoteState_none
        hstate (Option.some_ne_none q).symm hkept
      rw [← List.append_assoc, ← List.append_assoc]
      exact closes_append_congr hbehind
        (closes_behind_iff hp ht.blank (ih (isQuoteState_some hp)))
  | char c rest hs ih =>
    rw [closed_of_none hs, closes_cons, closes_cons, head_closed,
      ih (hstate.behind c)]

/-- Closing neither makes nor breaks an end. -/
theorem ends_closed (s : Text) : Ends (closed s) ↔ Ends s := by
  cases s with
  | nil => rw [closed_nil]
  | cons c s =>
    by_cases hc : c = '<'
    · have hnot {t : Text} (ht : t.head? = some '<') : ¬ Ends t := by
        obtain ⟨u, rfl⟩ := List.head?_eq_some_iff.1 ht
        rw [ends_cons]
        rintro (⟨h, -⟩ | ⟨h, -⟩)
        · cases h
        · exact absurd h (by decide)
      rw [hc]
      exact iff_of_false (hnot (head_closed _)) (hnot rfl)
    · rw [closed_cons hc, ends_cons, ends_cons, head_closed,
        closes_closed isQuoteState_none]

-- ==================================================== what may be found

/-- Where the rule takes nothing, nothing is to be found again. -/
theorem not_heads_of_none {c : Char} {s : Text}
    (hs : scanner.scan (c :: s) = none) : ¬ Heads (c :: closed s) := by
  intro hheads
  obtain ⟨t, ht, hends⟩ := heads_iff.1 hheads
  have hopening : opening = '<' :: "iframe".toList := by decide
  rw [hopening, List.cons_append, List.cons.injEq] at ht
  obtain ⟨rfl, hrest⟩ := ht
  obtain ⟨u, rfl, rfl⟩ := eq_append_of_closed_eq (by decide) hrest
  refine scan_eq_none_iff.1 hs (heads_iff.2 ⟨u, ?_, (ends_closed u).1 hends⟩)
  rw [hopening, List.cons_append]

/-- What starts within attributes does so in a quoted value. A reader that
starts there, outside quoted values, is in a quoted value at their end, and
only what it finds from there on matters. -/
theorem heads_of_inside {before x : Text} (hx : x ≠ [])
    (ha : AttributeText (before ++ x)) {y z : Text}
    (hyz : ∀ q, isQuote q = true →
      (Closes (some q) y ↔ Closes (some q) z))
    (h : Heads (x ++ y)) : Heads (x ++ z) := by
  have hfrom := ha.fromOutside.right
  have hstate := isQuoteState_none.after before
  have hend := quoteAfter_of_attributeTextFrom hfrom
  cases hquote : quoteAfter none before with
  | none =>
    -- outside quoted values no tag starts
    rw [hquote] at hfrom
    have hhead := head_of_heads h
    cases x with
    | nil => exact absurd rfl hx
    | cons c x =>
      cases hhead
      exact absurd rfl ((attributeTextFrom_cons.1 hfrom).1 rfl).1
  | some q =>
    rw [hquote] at hend hstate
    have hstays {t : Text} (ht : ∀ c ∈ t, isQuote c = false) :
        quoteAfter (some q) t = some q := by
      refine quoteAfter_of_not_mem fun hmem => ?_
      have hq := ht q hmem
      rw [hstate q rfl] at hq
      cases hq
    have hopening : ∀ c ∈ opening, isQuote c = false := by decide
    obtain ⟨t, ht, hends⟩ := heads_iff.1 h
    rcases List.append_eq_append_iff.1 ht with ⟨w, hw, -⟩ | ⟨u, rfl, rfl⟩
    · rw [hw] at hopening
      rw [hstays fun c hc => hopening c (List.mem_append_left w hc)] at hend
      cases hend
    · rw [quoteAfter_append, hstays hopening] at hend
      rw [List.append_assoc, heads_opening_iff]
      cases u with
      | nil => cases hend
      | cons c u =>
        rw [List.cons_append, ends_cons] at hends ⊢
        rcases hends with ⟨rfl, hhead⟩ | ⟨hc, hcloses⟩
        · cases u with
          | nil =>
            rw [hstays (by decide)] at hend
            cases hend
          | cons d u => exact Or.inl ⟨rfl, hhead⟩
        · rw [← List.singleton_append, quoteAfter_append,
            hstays (List.forall_mem_singleton.2 (isQuote_of_isBlank hc))]
            at hend
          obtain ⟨p, hp, hbehind⟩ := exists_quoteAfter_eq_some hstate
            isQuoteState_none (Option.some_ne_none q) hend
          exact Or.inr
            ⟨hc, (closes_append_congr hbehind (hyz p hp)).1 hcloses⟩

/-- Where no tag starts, none does further on. -/
theorem not_heads_of_suffix {w x : Text} (hw : '<' ∉ w) (hx : x ≠ [])
    (h : x <:+ w) (s : Text) : ¬ Heads (x ++ s) := by
  cases x with
  | nil => exact absurd rfl hx
  | cons c x =>
    refine not_heads_cons ?_ _
    rintro rfl
    exact hw (h.subset List.mem_cons_self)

/-- A self-closing iframe that is written in a tag or behind it is the tag,
or starts within the attributes, or stands behind it. -/
theorem suffix_cases {kept behind rest : Text}
    (hbehind : ∀ x, x ≠ [] → x <:+ behind → ¬ Heads (x ++ rest))
    {r : Text} (hr : r <:+ opening ++ (kept ++ (behind ++ rest)))
    (h : Heads r) :
    r = opening ++ (kept ++ (behind ++ rest))
      ∨ (∃ x, x ≠ [] ∧ x <:+ kept ∧ r = x ++ (behind ++ rest))
      ∨ r <:+ rest := by
  have hopening : opening = '<' :: "iframe".toList := by decide
  rw [hopening, List.cons_append, List.suffix_cons_iff] at hr
  rcases hr with hr | hr
  · exact Or.inl hr
  · rcases suffix_append_cases hr with ⟨x, hx, hsuffix, rfl⟩ | hr
    · exact absurd h (not_heads_of_suffix (by decide) hx hsuffix _)
    · rcases suffix_append_cases hr with hr | hr
      · exact Or.inr (Or.inl hr)
      · rcases suffix_append_cases hr with ⟨x, hx, hsuffix, rfl⟩ | hr
        · exact absurd h (hbehind x hx hsuffix)
        · exact Or.inr (Or.inr hr)

/-- The closing tag is not taken for another iframe. -/
theorem not_heads_closing {x : Text} (hx : x ≠ [])
    (h : x <:+ '>' :: "</iframe>".toList) (s : Text) : ¬ Heads (x ++ s) := by
  have hclosing : "</iframe>".toList = '<' :: "/iframe>".toList := by decide
  rw [hclosing, List.suffix_cons_iff, List.suffix_cons_iff] at h
  rcases h with rfl | rfl | h
  · exact not_heads_cons (by decide) _
  · intro hheads
    obtain ⟨t, ht, -⟩ := heads_iff.1 hheads
    cases ht
  · exact not_heads_of_suffix (by decide) hx h s

-- ============================================================ once more

section

variable {s : Text} {h : Hit Text} (hs : scanner.scan s = some h)
  {kept blanks rest : Text} (ht : Takes s h kept blanks rest)

include ht

/-- The rest is an end of the text. -/
theorem Takes.suffix : rest <:+ s := by
  rw [← ht.behind]
  exact List.drop_suffix _ _

theorem Takes.length_lt : rest.length < s.length := by
  rw [ht.written]
  simp only [List.length_append, List.length_cons]
  omega

/-- A place within the attributes is none behind the tag, nor its start. -/
theorem Takes.length_inside {x : Text} (hkept : x <:+ kept) :
    rest.length < (x ++ (blanks ++ '/' :: '>' :: rest)).length
      ∧ (x ++ (blanks ++ '/' :: '>' :: rest)).length < s.length := by
  have hlen := hkept.length_le
  have hopening : opening.length = 7 := rfl
  rw [ht.written]
  simp only [List.length_append, List.length_cons, hopening]
  omega

/-- A self-closing iframe in the text is the one that is taken, starts in its
attributes, or stands in the rest. -/
theorem Takes.suffix_cases {r : Text} (hr : r <:+ s) (hheads : Heads r) :
    r = s
      ∨ (∃ x, x ≠ [] ∧ x <:+ kept ∧ r = x ++ (blanks ++ '/' :: '>' :: rest))
      ∨ r <:+ rest := by
  have hbehind : blanks ++ '/' :: '>' :: rest
      = (blanks ++ ['/', '>']) ++ rest := by simp
  have hopen : '<' ∉ blanks ++ ['/', '>'] := by
    rw [List.mem_append, not_or]
    exact ⟨fun hmem => absurd (ht.blank _ hmem) (by decide), by decide⟩
  rw [ht.written, hbehind] at hr ⊢
  exact SelfClosingIframe.suffix_cases
    (fun x hx hsuffix => not_heads_of_suffix hopen hx hsuffix rest) hr hheads

/-- Within the attributes the same is to be found as before. -/
theorem Takes.heads_inside_iff {x : Text} (hx : x ≠ []) (hkept : x <:+ kept) :
    Heads (x ++ '>' :: ("</iframe>".toList ++ closed rest))
      ↔ Heads (x ++ (blanks ++ '/' :: '>' :: rest)) := by
  obtain ⟨before, rfl⟩ := hkept
  have hbehind (q : Char) (hq : isQuote q = true) :=
    closes_behind_iff hq ht.blank (closes_closed (isQuoteState_some hq) rest)
  exact ⟨heads_of_inside hx ht.attributes hbehind,
    heads_of_inside hx ht.attributes fun q hq => (hbehind q hq).symm⟩

include hs

/-- Behind what is taken, the rule goes on; within it, it does not look. -/
theorem Takes.visits_iff :
    (∀ r, r <:+ s → Heads r → scanner.Visits s r)
      ↔ (∀ x, x ≠ [] → x <:+ kept →
          ¬ Heads (x ++ (blanks ++ '/' :: '>' :: rest)))
        ∧ ∀ r, r <:+ rest → Heads r → scanner.Visits rest r := by
  have hvisits (r : Text) := Scanner.visits_iff_of_hit (r := r) hs
  rw [ht.behind] at hvisits
  constructor
  · intro hall
    refine ⟨fun x hx hkept hheads => ?_, fun r hr hheads => ?_⟩
    · have hsuffix : x ++ (blanks ++ '/' :: '>' :: rest) <:+ s := by
        obtain ⟨before, rfl⟩ := hkept
        refine ⟨opening ++ before, ?_⟩
        rw [ht.written, List.append_assoc, List.append_assoc]
      obtain ⟨hbehind, hwithin⟩ := ht.length_inside hkept
      rcases (hvisits _).1 (hall _ hsuffix hheads) with heq | hr
      · rw [heq] at hwithin
        omega
      · have hle := hr.isSuffix.length_le
        omega
    · rcases (hvisits r).1 (hall r (hr.trans ht.suffix) hheads) with rfl | hr'
      · have hle := hr.length_le
        have hlt := ht.length_lt
        omega
      · exact hr'
  · rintro ⟨hinside, hrest⟩ r hr hheads
    rcases ht.suffix_cases hr hheads with rfl | ⟨x, hx, hkept, rfl⟩ | hr
    · exact .here r
    · exact absurd hheads (hinside x hx hkept)
    · exact (hvisits r).2 (Or.inr (hrest r hr hheads))

/-- What is made holds a self-closing iframe if a slash is left behind the
attributes, or if there was one within these, or if what follows becomes
so. -/
theorem Takes.closed_iff :
    (∀ r, r <:+ closed s → ¬ Heads r)
      ↔ kept.getLast? ≠ some '/'
        ∧ (∀ x, x ≠ [] → x <:+ kept →
          ¬ Heads (x ++ (blanks ++ '/' :: '>' :: rest)))
        ∧ ∀ r, r <:+ closed rest → ¬ Heads r := by
  have hclosed := closed_of_takes hs ht
  have hlast : Heads (closed s) ↔ kept.getLast? = some '/' := by
    rw [hclosed, heads_opening_iff, ht.ends_iff]
  constructor
  · intro hall
    refine ⟨fun h => hall _ (List.suffix_refl _) (hlast.2 h),
      fun x hx hkept hheads => ?_, fun r hr => hall r (hr.trans ?_)⟩
    · refine hall _ ?_ ((ht.heads_inside_iff hx hkept).2 hheads)
      obtain ⟨before, rfl⟩ := hkept
      refine ⟨opening ++ before, ?_⟩
      rw [hclosed, List.append_assoc, List.append_assoc]
    · refine ⟨opening ++ (kept ++ '>' :: "</iframe>".toList), ?_⟩
      rw [hclosed, List.append_assoc, List.append_assoc, List.cons_append]
  · rintro ⟨hslash, hinside, hrest⟩ r hr hheads
    rw [hclosed] at hr
    have hbehind (x : Text) (hx : x ≠ [])
        (hsuffix : x <:+ '>' :: "</iframe>".toList) :=
      not_heads_closing hx hsuffix (closed rest)
    rcases SelfClosingIframe.suffix_cases hbehind hr hheads with
      rfl | ⟨x, hx, hkept, rfl⟩ | hr
    · exact hslash (hlast.1 (by rw [hclosed]; exact hheads))
    · exact hinside x hx hkept ((ht.heads_inside_iff hx hkept).1 hheads)
    · exact hrest r hr hheads

end

/-- A closed text has no self-closing iframe left exactly if no attributes end
in a slash and each such iframe is one that the scanner comes to. -/
theorem closed_iff (s : Text) :
    (∀ r, r <:+ closed s → ¬ Heads r)
      ↔ (∀ h ∈ scanner.hits s, h.value.trimEnd.getLast? ≠ some '/')
        ∧ ∀ r, r <:+ s → Heads r → scanner.Visits s r := by
  induction s using scanner.induction_on with
  | nil =>
    rw [closed_nil, scanner.hits_nil]
    have hnil {r : Text} (hr : r <:+ []) : ¬ Heads r := by
      rw [List.suffix_nil.1 hr]
      exact fun h => nomatch head_of_heads h
    exact iff_of_true (fun r => hnil)
      ⟨nofun, fun r hr hheads => absurd hheads (hnil hr)⟩
  | hit s h hs ih =>
    obtain ⟨kept, blanks, rest, ht⟩ := exists_takes hs
    rw [ht.closed_iff hs, ht.visits_iff hs, scanner.hits_of_hit hs,
      List.forall_mem_cons, ht.value]
    rw [ht.behind] at ih ⊢
    rw [ih]
    constructor
    · rintro ⟨hlast, hinside, hhits, hvisits⟩
      exact ⟨⟨hlast, hhits⟩, hinside, hvisits⟩
    · rintro ⟨⟨hlast, hhits⟩, hinside, hvisits⟩
      exact ⟨hlast, hinside, hhits, hvisits⟩
  | char c rest hs ih =>
    have hnot := scan_eq_none_iff.1 hs
    have hmade : (∀ r, r <:+ c :: closed rest → ¬ Heads r)
        ↔ ∀ r, r <:+ closed rest → ¬ Heads r := by
      refine ⟨fun hall r hr => hall r (hr.trans (List.suffix_cons _ _)),
        fun hall r hr => ?_⟩
      rcases List.suffix_cons_iff.1 hr with rfl | hr
      · exact not_heads_of_none hs
      · exact hall r hr
    have hvisits (r : Text) := Scanner.visits_iff_of_none (r := r) hs
    rw [closed_of_none hs, scanner.hits_of_none hs, hmade, ih]
    refine and_congr_right fun _ => ⟨fun hall r hr hheads => ?_,
      fun hall r hr hheads => ?_⟩
    · rcases List.suffix_cons_iff.1 hr with rfl | hr
      · exact absurd hheads hnot
      · exact (hvisits r).2 (Or.inr (hall r hr hheads))
    · rcases (hvisits r).1
        (hall r (hr.trans (List.suffix_cons _ _)) hheads) with rfl | hr'
      · exact absurd hheads hnot
      · exact hr'

end SelfClosingIframe

open SelfClosingIframe

/-- The rule has nothing to do in what it made exactly if no iframe that it
takes keeps a slash at the end, and none is written within another. -/
theorem count_apply_iframeClosing_twice (s : Text) :
    (Rule.iframeClosing.apply (Rule.iframeClosing.apply s).text).count = 0
      ↔ (∀ h ∈ scanner.hits s, h.value.trimEnd.getLast? ≠ some '/')
        ∧ ∀ r, r <:+ s → Heads r → scanner.Visits s r := by
  rw [count_apply_iframeClosing_eq_zero_iff]
  exact closed_iff s

/-- A slash may well stand at the end: it belongs to a value without
quotes. -/
theorem count_apply_iframeClosing_slash :
    (Rule.iframeClosing.apply
      (Rule.iframeClosing.apply "<iframe src=/x/ />".toList).text).count
        = 1 := by
  decide +kernel

end ComponentMarkdown
