/-
Places outside quoted values. A reader that knows nothing but quoted
values passes over each of them and comes to every other character;
`Outside` lists the places it comes to.

A scanner that passes over quoted values finds what stands at one of these
places, as long as nothing hides there: `PassesQuoted.hits_iff` lets
hits of no interest be taken on the way, if they lead outside quoted
values again and hide nothing of interest. If no hit hides another, it comes
to every place where it reads something (`PassesQuoted.visits_iff`).
-/
import ComponentMarkdown.Markup.Quoted
import ComponentMarkdown.Proofs.Splice.Hits
import ComponentMarkdown.Proofs.Text.Blank

namespace ComponentMarkdown.Markup

-- ====================================================== quoted values

/-- There are two quotes. -/
theorem isQuote_iff {c : Char} : isQuote c = true ↔ c = '"' ∨ c = '\'' := by
  simp [isQuote]

theorem isQuote_eq_false_iff {c : Char} :
    isQuote c = false ↔ c ≠ '"' ∧ c ≠ '\'' := by
  rw [← Bool.not_eq_true, isQuote_iff, not_or]

theorem isQuote_double : isQuote '"' = true := by decide

theorem isQuote_single : isQuote '\'' = true := by decide

/-- No quote belongs to a class without the two. -/
theorem isQuote_of_class {f : Char → Bool}
    (hf : ∀ q ∈ ['"', '\''], f q = false) {c : Char} (hc : f c = true) :
    isQuote c = false := by
  have hnot := not_mem_of_class hf hc
  rw [isQuote_eq_false_iff]
  simpa [not_or] using hnot

/-- A blank is no quote. -/
theorem isQuote_of_isBlank {c : Char} (hc : isBlank c = true) :
    isQuote c = false := isQuote_of_class (by decide) hc

theorem isBlank_of_isQuote {c : Char} (hc : isQuote c = true) :
    isBlank c = false := isBlank_of_class (by decide) hc

/-- A quoted value starts with a quote. -/
theorem quoted?_eq_none {c : Char} (hc : isQuote c = false) (s : Text) :
    quoted? (c :: s) = none := by
  rw [quoted?, hc, if_neg Bool.false_ne_true]

theorem through?_append {q : Char} {s t : Text}
    (h : through? q s = some t) (x : Text) :
    through? q (t ++ x) = some t := by
  induction s generalizing t with
  | nil => cases h
  | cons c s ih =>
    unfold through? at h
    split at h
    · rename_i hc
      cases h
      exact if_pos hc
    · rename_i hc
      obtain ⟨u, hu, rfl⟩ := Option.map_eq_some_iff.1 h
      rw [List.cons_append, through?, if_neg hc, ih hu]
      rfl

/-- A quoted value is read the same whatever follows it. -/
theorem quoted?_append {s t : Text} (h : quoted? s = some t) (x : Text) :
    quoted? (t ++ x) = some t := by
  cases s with
  | nil => cases h
  | cons c s =>
    rw [quoted?] at h
    split at h
    · rename_i hc
      obtain ⟨u, hu, rfl⟩ := Option.map_eq_some_iff.1 h
      rw [List.cons_append, quoted?, if_pos hc, through?_append hu]
      rfl
    · cases h

/-- A quoted value starts with its quote. -/
theorem quoted?_head {s t : Text} (h : quoted? s = some t) :
    ∃ c rest, t = c :: rest ∧ isQuote c = true := by
  cases s with
  | nil => cases h
  | cons c s =>
    rw [quoted?] at h
    split at h
    · rename_i hc
      obtain ⟨u, -, rfl⟩ := Option.map_eq_some_iff.1 h
      exact ⟨c, u, rfl, hc⟩
    · cases h

/-- What is read through a quote holds it at its end alone. -/
theorem through?_written {q : Char} {s t : Text}
    (h : through? q s = some t) : ∃ inner, t = inner ++ [q] ∧ q ∉ inner := by
  induction s generalizing t with
  | nil => cases h
  | cons c s ih =>
    unfold through? at h
    split at h
    · rename_i hc
      cases h
      exact ⟨[], by rw [hc, List.nil_append], List.not_mem_nil⟩
    · rename_i hc
      obtain ⟨u, hu, rfl⟩ := Option.map_eq_some_iff.1 h
      obtain ⟨inner, rfl, hinner⟩ := ih hu
      refine ⟨c :: inner, rfl, ?_⟩
      rw [List.mem_cons]
      exact not_or.2 ⟨Ne.symm hc, hinner⟩

/-- Up to a quote, what does not hold it is read through. -/
theorem through?_of_not_mem {q : Char} {inner : Text} (h : q ∉ inner)
    (s : Text) : through? q (inner ++ q :: s) = some (inner ++ [q]) := by
  induction inner with
  | nil => exact if_pos rfl
  | cons c inner ih =>
    rw [List.mem_cons, not_or] at h
    rw [List.cons_append, through?, if_neg (Ne.symm h.1), ih h.2]
    rfl

/-- A value has no end exactly if its quote does not stand in what follows. -/
theorem through?_eq_none_iff {q : Char} {s : Text} :
    through? q s = none ↔ q ∉ s := by
  induction s with
  | nil => exact iff_of_true rfl List.not_mem_nil
  | cons c s ih =>
    unfold through?
    rw [List.mem_cons, not_or, ← ih]
    by_cases hc : c = q
    · rw [if_pos hc]
      exact iff_of_false (by simp) (fun h => h.1 hc.symm)
    · rw [if_neg hc, Option.map_eq_none_iff, and_iff_right (Ne.symm hc)]

/-- A quote that the text does not repeat starts no quoted value. -/
theorem quoted?_cons_eq_none_iff {c : Char} {s : Text} :
    quoted? (c :: s) = none ↔ (isQuote c = true → c ∉ s) := by
  rw [quoted?]
  cases hc : isQuote c with
  | true =>
    rw [if_pos rfl, Option.map_eq_none_iff, through?_eq_none_iff]
    exact ⟨fun h _ => h, fun h => h rfl⟩
  | false => exact iff_of_true rfl (fun h => by cases h)

/-- Finds quoted values. -/
def quotedValues : Scanner Unit where
  scan s := (quoted? s).map fun t => ⟨t, ()⟩
  taken_ne_nil := by
    intro s h hs
    obtain ⟨t, ht, rfl⟩ := Option.map_eq_some_iff.1 hs
    exact quoted?_ne_nil ht
  taken_isPrefix := by
    intro s h hs
    obtain ⟨t, ht, rfl⟩ := Option.map_eq_some_iff.1 hs
    exact quoted?_isPrefix ht

/-- The places of a text outside its quoted values, each given by the text
from there on. -/
def Outside (s r : Text) : Prop := quotedValues.Visits s r

theorem scan_quotedValues_of_some {s t : Text} (h : quoted? s = some t) :
    quotedValues.scan s = some ⟨t, ()⟩ := by
  show (quoted? s).map _ = _
  rw [h]
  rfl

theorem scan_quotedValues_of_none {s : Text} (h : quoted? s = none) :
    quotedValues.scan s = none := by
  show (quoted? s).map _ = _
  rw [h]
  rfl

/-- A place behind a quoted value is one in the text behind it. -/
theorem outside_of_quoted {s t r : Text} (ht : quoted? s = some t) :
    Outside s r ↔ r = s ∨ Outside (s.drop t.length) r :=
  Scanner.visits_iff_of_hit (scan_quotedValues_of_some ht)

/-- A character that starts no quoted value is passed over alone. -/
theorem outside_of_unquoted {c : Char} {s r : Text}
    (hc : quoted? (c :: s) = none) :
    Outside (c :: s) r ↔ r = c :: s ∨ Outside s r :=
  Scanner.visits_iff_of_none (scan_quotedValues_of_none hc)

/-- A text without quotes ends outside quoted values. -/
theorem outside_append {a : Text} (ha : ∀ c ∈ a, isQuote c = false)
    (b : Text) : Outside (a ++ b) b := by
  induction a with
  | nil => exact .here b
  | cons c a ih =>
    obtain ⟨hc, ha⟩ := List.forall_mem_cons.1 ha
    rw [List.cons_append, outside_of_unquoted (quoted?_eq_none hc _)]
    exact Or.inr (ih ha)

/-- Behind a text without quotes, the places are those of what follows. -/
theorem outside_append_cases {a b r : Text}
    (ha : ∀ c ∈ a, isQuote c = false) (hr : Outside (a ++ b) r) :
    b.length < r.length ∨ Outside b r := by
  induction a with
  | nil => exact Or.inr hr
  | cons c a ih =>
    obtain ⟨hc, ha⟩ := List.forall_mem_cons.1 ha
    rw [List.cons_append, outside_of_unquoted (quoted?_eq_none hc _)] at hr
    rcases hr with rfl | hr
    · left
      rw [List.length_cons, List.length_append]
      omega
    · exact ih ha hr

/-- Among visible characters only visible places lie. -/
theorem outside_visible {a b r : Text}
    (ha : ∀ c ∈ a, isBlank c = false ∧ isQuote c = false)
    (hr : Outside (a ++ b) r) :
    (∃ c rest, r = c :: rest ∧ isBlank c = false) ∨ Outside b r := by
  induction a with
  | nil => exact Or.inr hr
  | cons c a ih =>
    obtain ⟨⟨hblank, hquote⟩, ha⟩ := List.forall_mem_cons.1 ha
    rw [List.cons_append,
      outside_of_unquoted (quoted?_eq_none hquote _)] at hr
    rcases hr with rfl | hr
    · exact Or.inl ⟨c, a ++ b, rfl, hblank⟩
    · exact ih ha hr

-- ============================================ scanning between them

/-- Whether a scanner passes over quoted values and otherwise reads what
`scan` reads. -/
def PassesQuoted {α : Type} (sc : Scanner (Option α))
    (scan : Text → Option (Hit α)) : Prop :=
  ∀ s, sc.scan s = match quoted? s with
    | some t => some ⟨t, none⟩
    | none => (scan s).map fun h => ⟨h.taken, some h.value⟩

section

variable {α : Type} {sc : Scanner (Option α)} {scan : Text → Option (Hit α)}

/-- At a quote, the value is passed over. -/
theorem PassesQuoted.of_quoted (hsc : PassesQuoted sc scan) {s t : Text}
    (ht : quoted? s = some t) : sc.scan s = some ⟨t, none⟩ := by
  rw [hsc s, ht]

/-- Elsewhere it is read what is to be read. -/
theorem PassesQuoted.of_unquoted (hsc : PassesQuoted sc scan) {s : Text}
    (hs : quoted? s = none) :
    sc.scan s = (scan s).map fun h => ⟨h.taken, some h.value⟩ := by
  rw [hsc s, hs]

/-- What is read is read outside quoted values. -/
theorem PassesQuoted.scan_of_some (hsc : PassesQuoted sc scan) {s t : Text}
    {v : α} (h : sc.scan s = some ⟨t, some v⟩) : scan s = some ⟨t, v⟩ := by
  rw [hsc s] at h
  split at h
  · cases h
  · obtain ⟨g, hg, heq⟩ := Option.map_eq_some_iff.1 h
    cases heq
    exact hg

/-- Nothing is read off nothing. -/
theorem PassesQuoted.scan_nil (hsc : PassesQuoted sc scan) :
    scan [] = none := by
  cases hs : scan [] with
  | none => rfl
  | some h =>
    have hscan := hsc.of_unquoted (show quoted? [] = none from rfl)
    rw [hs] at hscan
    have hpos := sc.taken_length_pos hscan
    have hle := sc.taken_length_le hscan
    rw [List.length_nil] at hle
    omega

/-- Such a scanner gets through a text by passing over a quoted value, by
taking what it reads, or by passing over a character. -/
theorem PassesQuoted.induction_on (hsc : PassesQuoted sc scan)
    {motive : Text → Prop} (s : Text)
    (nil : motive [])
    (quoted : ∀ s t, quoted? s = some t → motive (s.drop t.length)
      → motive s)
    (read : ∀ s h, quoted? s = none → scan s = some h
      → motive (s.drop h.taken.length) → motive s)
    (char : ∀ c rest, quoted? (c :: rest) = none
      → scan (c :: rest) = none → motive rest → motive (c :: rest)) :
    motive s := by
  induction s using sc.induction_on with
  | nil => exact nil
  | hit s h hs ih =>
    cases hq : quoted? s with
    | some t =>
      rw [hsc.of_quoted hq] at hs
      cases hs
      exact quoted s t hq ih
    | none =>
      rw [hsc.of_unquoted hq] at hs
      obtain ⟨g, hg, rfl⟩ := Option.map_eq_some_iff.1 hs
      exact read s g hq hg ih
  | char c rest hs ih =>
    have hq : quoted? (c :: rest) = none := by
      cases hq : quoted? (c :: rest) with
      | none => rfl
      | some t =>
        rw [hsc.of_quoted hq] at hs
        cases hs
    rw [hsc.of_unquoted hq, Option.map_eq_none_iff] at hs
    exact char c rest hq hs ih

/-- A quoted value is a hit without a value, -/
theorem PassesQuoted.hits_of_quoted (hsc : PassesQuoted sc scan)
    {s t : Text} (hq : quoted? s = some t) :
    sc.hits s = ⟨t, none⟩ :: sc.hits (s.drop t.length) :=
  sc.hits_of_hit (hsc.of_quoted hq)

/-- what is read is one with its value, -/
theorem PassesQuoted.hits_of_read (hsc : PassesQuoted sc scan)
    {s : Text} {h : Hit α} (hq : quoted? s = none) (hs : scan s = some h) :
    sc.hits s
      = ⟨h.taken, some h.value⟩ :: sc.hits (s.drop h.taken.length) := by
  refine sc.hits_of_hit ?_
  rw [hsc.of_unquoted hq, hs]
  rfl

/-- and any other character is none. -/
theorem PassesQuoted.hits_of_char (hsc : PassesQuoted sc scan)
    {c : Char} {rest : Text} (hq : quoted? (c :: rest) = none)
    (hs : scan (c :: rest) = none) : sc.hits (c :: rest) = sc.hits rest := by
  refine sc.hits_of_none ?_
  rw [hsc.of_unquoted hq, hs]
  rfl

/-- Nothing with the property `P` is found exactly if nothing with it
stands at a place outside quoted values. Where the scanner takes something
without the property, it has to come outside quoted values again, having
passed over nothing that has it. -/
theorem PassesQuoted.hits_iff (hsc : PassesQuoted sc scan) (P : α → Prop)
    (hquote : ∀ s, (scan s).isSome = true → quoted? s = none)
    (hpass : ∀ s h, scan s = some h → ¬ P h.value →
      Outside s (s.drop h.taken.length)
        ∧ ∀ r, Outside s r → Outside (s.drop h.taken.length) r
          ∨ ∀ g, scan r = some g → ¬ P g.value)
    (s : Text) :
    (∀ h ∈ sc.hits s, ∀ v, h.value = some v → ¬ P v)
      ↔ ∀ r, Outside s r → ∀ g, scan r = some g → ¬ P g.value := by
  induction s using hsc.induction_on with
  | nil =>
    rw [Scanner.hits_nil]
    constructor
    · intro _ r hr g hg
      rw [List.suffix_nil.1 hr.isSuffix, hsc.scan_nil] at hg
      cases hg
    · intro _ h hmem
      cases hmem
  | quoted s t hq ih =>
    rw [hsc.hits_of_quoted hq, List.forall_mem_cons, ih]
    constructor
    · intro h r hr g hg
      rcases (outside_of_quoted hq).1 hr with rfl | hr
      · rw [hquote r (by rw [hg]; rfl)] at hq
        cases hq
      · exact h.2 r hr g hg
    · intro hall
      refine ⟨fun v hv => ?_, fun r hr => ?_⟩
      · cases hv
      · exact hall r ((outside_of_quoted hq).2 (Or.inr hr))
  | read s g hq hg ih =>
    rw [hsc.hits_of_read hq hg, List.forall_mem_cons, ih]
    constructor
    · intro h r hr
      have hnot : ¬ P g.value := h.1 g.value rfl
      rcases (hpass s g hg hnot).2 r hr with hr | hr
      · exact h.2 r hr
      · exact hr
    · intro hall
      have hnot : ¬ P g.value := hall s (.here s) g hg
      refine ⟨fun v hv => ?_, fun r hr => ?_⟩
      · cases hv
        exact hnot
      · exact hall r ((hpass s g hg hnot).1.trans hr)
  | char c rest hq hs ih =>
    rw [hsc.hits_of_char hq hs, ih]
    constructor
    · intro hrest r hr g hg
      rcases (outside_of_unquoted hq).1 hr with rfl | hr
      · rw [hs] at hg
        cases hg
      · exact hrest r hr g hg
    · intro hall r hr
      exact hall r ((outside_of_unquoted hq).2 (Or.inr hr))

/-- Where something is read, such a scanner comes exactly if the place lies
outside quoted values, as long as no other such place lies in what is
read. -/
theorem PassesQuoted.visits_iff (hsc : PassesQuoted sc scan)
    (hpass : ∀ s h, scan s = some h →
      Outside s (s.drop h.taken.length)
        ∧ ∀ r, Outside s r → (scan r).isSome = true →
          r = s ∨ Outside (s.drop h.taken.length) r)
    {r : Text} (hr : (scan r).isSome = true) (s : Text) :
    sc.Visits s r ↔ Outside s r := by
  induction s using hsc.induction_on with
  | nil =>
    constructor
    · intro hvisits
      rw [List.suffix_nil.1 hvisits.isSuffix]
      exact .here []
    · intro hout
      rw [List.suffix_nil.1 hout.isSuffix]
      exact .here []
  | quoted s t hq ih =>
    rw [Scanner.visits_iff_of_hit (hsc.of_quoted hq), outside_of_quoted hq, ih]
  | read s h hq hs ih =>
    have hscan := hsc.of_unquoted hq
    rw [hs] at hscan
    rw [Scanner.visits_iff_of_hit hscan, ih]
    constructor
    · rintro (rfl | hout)
      · exact .here r
      · exact (hpass s h hs).1.trans hout
    · exact fun hout => (hpass s h hs).2 r hout hr
  | char c rest hq hs ih =>
    have hscan := hsc.of_unquoted hq
    rw [hs] at hscan
    rw [Scanner.visits_iff_of_none hscan, outside_of_unquoted hq, ih]

end

end ComponentMarkdown.Markup
