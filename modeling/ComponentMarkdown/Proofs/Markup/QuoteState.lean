/-
Where a reader of attributes stands between two characters: outside quoted
values, or in one that a given quote ends. A character takes each of these
states to another one, and no two to the same (`quoteBehind_injective`). So
of two readers of one text, if only one starts in a quoted value, never both
are outside quoted values at the same place.

What the reader is after is `/>` outside quoted values, with neither `<` nor
`>` before it (`Closes`). A reader in a quoted value does not see the
characters there, and comes to the same end if they are others
(`closes_append_congr`).
-/
import ComponentMarkdown.Proofs.Markup.Attributes

namespace ComponentMarkdown.Markup

-- ============================================================== states

/-- Where the reader stands behind a character: outside quoted values, or in
one that the given quote ends. -/
def quoteBehind : Option Char → Char → Option Char
  | none, c => if isQuote c then some c else none
  | some q, c => if c = q then none else some q

theorem quoteBehind_none (c : Char) :
    quoteBehind none c = if isQuote c then some c else none := rfl

theorem quoteBehind_some (q c : Char) :
    quoteBehind (some q) c = if c = q then none else some q := rfl

/-- Only its own quote ends a value. -/
theorem quoteBehind_of_ne {q c : Char} (h : q ≠ c) :
    quoteBehind (some q) c = some q := if_neg (Ne.symm h)

/-- Where the reader stands behind a text. -/
def quoteAfter (quote : Option Char) (t : Text) : Option Char :=
  t.foldl quoteBehind quote

/-- Whether the reader can stand there at all. -/
def IsQuoteState (quote : Option Char) : Prop := ∀ q ∈ quote, isQuote q = true

theorem isQuoteState_none : IsQuoteState none := nofun

theorem isQuoteState_some {q : Char} (hq : isQuote q = true) :
    IsQuoteState (some q) := by
  rintro _ ⟨⟩
  exact hq

/-- Behind a character, a quote or none is open, -/
theorem IsQuoteState.behind {quote : Option Char} (h : IsQuoteState quote)
    (c : Char) : IsQuoteState (quoteBehind quote c) := by
  cases quote with
  | none =>
    rw [quoteBehind_none]
    split
    · rename_i hc
      exact isQuoteState_some hc
    · exact isQuoteState_none
  | some q =>
    rw [quoteBehind_some]
    split
    · exact isQuoteState_none
    · exact h

/-- and so it is behind a text. -/
theorem IsQuoteState.after {quote : Option Char} (h : IsQuoteState quote)
    (t : Text) : IsQuoteState (quoteAfter quote t) := by
  induction t generalizing quote with
  | nil => exact h
  | cons c t ih => exact ih (h.behind c)

/-- What is open behind two texts is open behind the second from the first. -/
theorem quoteAfter_append (quote : Option Char) (a b : Text) :
    quoteAfter quote (a ++ b) = quoteAfter (quoteAfter quote a) b :=
  List.foldl_append

/-- No two states become the same. -/
theorem quoteBehind_injective {a b : Option Char} (ha : IsQuoteState a)
    (hb : IsQuoteState b) {c : Char} (h : quoteBehind a c = quoteBehind b c) :
    a = b := by
  have hopen (q : Char) (hq : isQuote q = true) :
      quoteBehind none c ≠ quoteBehind (some q) c := by
    rw [quoteBehind_none, quoteBehind_some]
    by_cases hc : c = q
    · rw [hc, if_pos hq, if_pos rfl]
      exact Option.some_ne_none q
    · rw [if_neg hc]
      split
      · exact fun he => hc (Option.some.inj he)
      · exact (Option.some_ne_none q).symm
  cases a with
  | none =>
    cases b with
    | none => rfl
    | some q => exact absurd h (hopen q (hb q rfl))
  | some p =>
    cases b with
    | none => exact absurd h.symm (hopen p (ha p rfl))
    | some q =>
      rw [quoteBehind_some, quoteBehind_some] at h
      by_cases hp : c = p
      · rw [if_pos hp] at h
        split at h
        · rename_i hq
          rw [← hp, ← hq]
        · cases h
      · rw [if_neg hp] at h
        split at h
        · cases h
        · exact h

/-- What is open behind a text tells what was open before it. -/
theorem quoteAfter_injective {a b : Option Char} (ha : IsQuoteState a)
    (hb : IsQuoteState b) {t : Text} (h : quoteAfter a t = quoteAfter b t) :
    a = b := by
  induction t generalizing a b with
  | nil => exact h
  | cons c t ih =>
    exact quoteBehind_injective ha hb (ih (ha.behind c) (hb.behind c) h)

/-- Where a reader comes out of quoted values, one that starts elsewhere
does not. -/
theorem exists_quoteAfter_eq_some {a b : Option Char} (ha : IsQuoteState a)
    (hb : IsQuoteState b) (hab : a ≠ b) {t : Text}
    (h : quoteAfter a t = none) :
    ∃ q, isQuote q = true ∧ quoteAfter b t = some q := by
  cases hq : quoteAfter b t with
  | none => exact absurd (quoteAfter_injective ha hb (h.trans hq.symm)) hab
  | some q =>
    have hstate := hb.after t
    rw [hq] at hstate
    exact ⟨q, hstate q rfl, rfl⟩

/-- A quoted value goes on up to its quote. -/
theorem quoteAfter_of_not_mem {q : Char} {t : Text} (h : q ∉ t) :
    quoteAfter (some q) t = some q := by
  induction t with
  | nil => rfl
  | cons c t ih =>
    rw [List.mem_cons, not_or] at h
    show quoteAfter (quoteBehind (some q) c) t = _
    rw [quoteBehind_of_ne h.1, ih h.2]

-- ========================================================== attributes

/-- A reader starts outside quoted values. -/
theorem AttributeText.fromOutside {a : Text} (ha : AttributeText a) :
    AttributeTextFrom none a := ha

theorem attributeTextFrom_nil {quote : Option Char} :
    AttributeTextFrom quote [] ↔ quote = none := by
  cases quote with
  | none => exact iff_of_true .nil rfl
  | some q =>
    refine iff_of_false ?_ (Option.some_ne_none q)
    rintro ⟨inner, rest, h, -⟩
    exact List.append_ne_nil_of_right_ne_nil inner (List.cons_ne_nil q rest)
      h.symm

/-- The attributes from a place on are a character that may stand there, and
the attributes behind it. -/
theorem attributeTextFrom_cons {quote : Option Char} {c : Char} {a : Text} :
    AttributeTextFrom quote (c :: a)
      ↔ (quote = none → c ≠ '<' ∧ c ≠ '>')
        ∧ AttributeTextFrom (quoteBehind quote c) a := by
  cases quote with
  | none =>
    rw [quoteBehind_none]
    constructor
    · intro h
      cases h with
      | char hopen hclose hquote hrest =>
        rw [hquote]
        exact ⟨fun _ => ⟨hopen, hclose⟩, hrest⟩
      | @quoted _ inner rest hquote hinner hrest =>
        have hmarks : c ∉ ['<', '>'] := not_mem_of_class (by decide) hquote
        rw [if_pos hquote]
        exact ⟨fun _ => by simpa [not_or] using hmarks,
          inner, rest, rfl, hinner, hrest⟩
    · rintro ⟨hc, hrest⟩
      obtain ⟨hopen, hclose⟩ := hc rfl
      cases hquote : isQuote c with
      | true =>
        rw [hquote] at hrest
        obtain ⟨inner, rest, rfl, hinner, hrest⟩ := hrest
        exact .quoted hquote hinner hrest
      | false =>
        rw [hquote] at hrest
        exact .char hopen hclose hquote hrest
  | some q =>
    rw [and_iff_right (fun h => absurd h (Option.some_ne_none q))]
    rw [quoteBehind_some]
    constructor
    · rintro ⟨inner, rest, h, hinner, hrest⟩
      cases inner with
      | nil =>
        cases h
        rw [if_pos rfl]
        exact hrest
      | cons d inner =>
        cases h
        rw [List.mem_cons, not_or] at hinner
        rw [if_neg (Ne.symm hinner.1)]
        exact ⟨inner, rest, rfl, hinner.2, hrest⟩
    · intro h
      split at h
      · rename_i hc
        exact ⟨[], a, by rw [hc, List.nil_append], List.not_mem_nil, h⟩
      · rename_i hc
        obtain ⟨inner, rest, rfl, hinner, hrest⟩ := h
        refine ⟨c :: inner, rest, rfl, ?_, hrest⟩
        rw [List.mem_cons, not_or]
        exact ⟨Ne.symm hc, hinner⟩

/-- The rear part of attributes is one from what is open there. -/
theorem AttributeTextFrom.right {quote : Option Char} {a b : Text}
    (h : AttributeTextFrom quote (a ++ b)) :
    AttributeTextFrom (quoteAfter quote a) b := by
  induction a generalizing quote with
  | nil => exact h
  | cons c a ih => exact ih (attributeTextFrom_cons.1 h).2

/-- Attributes end outside quoted values. -/
theorem quoteAfter_of_attributeTextFrom {quote : Option Char} {a : Text}
    (h : AttributeTextFrom quote a) : quoteAfter quote a = none := by
  rw [← List.append_nil a] at h
  exact attributeTextFrom_nil.1 h.right

/-- Up to a place outside quoted values, attributes are attributes. -/
theorem AttributeTextFrom.left {quote : Option Char} {a b : Text}
    (h : AttributeTextFrom quote (a ++ b)) (ha : quoteAfter quote a = none) :
    AttributeTextFrom quote a := by
  induction a generalizing quote with
  | nil => exact attributeTextFrom_nil.2 ha
  | cons c a ih =>
    obtain ⟨hc, hrest⟩ := attributeTextFrom_cons.1 h
    exact attributeTextFrom_cons.2 ⟨hc, ih hrest ha⟩

/-- And so they are without the blanks at their end. -/
theorem AttributeText.trimEnd {a : Text} (ha : AttributeText a) :
    AttributeText a.trimEnd := by
  obtain ⟨blanks, hblanks, hend⟩ := Text.exists_trimEnd_append a
  rw [hend] at ha
  refine ha.fromOutside.left ?_
  cases hquote : quoteAfter none a.trimEnd with
  | none => rfl
  | some q =>
    have hstate := isQuoteState_none.after a.trimEnd
    rw [hquote] at hstate
    have hmem : q ∉ blanks := by
      intro hq
      have hnot := isQuote_of_isBlank (hblanks q hq)
      rw [hstate q rfl] at hnot
      cases hnot
    have hnone := quoteAfter_of_attributeTextFrom ha.fromOutside
    rw [quoteAfter_append, hquote, quoteAfter_of_not_mem hmem] at hnone
    cases hnone

-- ======================================================= reading an end

/-- Whether attributes and `/>` follow where the reader stands. -/
def Closes (quote : Option Char) (s : Text) : Prop :=
  ∃ a after, s = a ++ '/' :: '>' :: after ∧ AttributeTextFrom quote a

/-- A tag closes itself at once, or behind a character that ends nothing. -/
theorem closes_cons {quote : Option Char} {c : Char} {s : Text} :
    Closes quote (c :: s)
      ↔ (quote = none ∧ c = '/' ∧ s.head? = some '>')
        ∨ (quote = none → c ≠ '<' ∧ c ≠ '>')
          ∧ Closes (quoteBehind quote c) s := by
  constructor
  · rintro ⟨a, after, h, ha⟩
    cases a with
    | nil =>
      cases h
      exact Or.inl ⟨attributeTextFrom_nil.1 ha, rfl, rfl⟩
    | cons d a =>
      cases h
      obtain ⟨hc, ha⟩ := attributeTextFrom_cons.1 ha
      exact Or.inr ⟨hc, a, after, rfl, ha⟩
  · rintro (⟨rfl, rfl, hhead⟩ | ⟨hc, a, after, rfl, ha⟩)
    · obtain ⟨after, rfl⟩ := List.head?_eq_some_iff.1 hhead
      exact ⟨[], after, rfl, .nil⟩
    · exact ⟨c :: a, after, rfl, attributeTextFrom_cons.2 ⟨hc, ha⟩⟩

/-- In a quoted value the reader sees nothing but its quote. -/
theorem closes_append_of_not_mem {q : Char} {t : Text} (h : q ∉ t)
    {s : Text} : Closes (some q) (t ++ s) ↔ Closes (some q) s := by
  induction t with
  | nil => rfl
  | cons c t ih =>
    rw [List.mem_cons, not_or] at h
    rw [List.cons_append, closes_cons, quoteBehind_of_ne h.1, ih h.2]
    simp

/-- A reader that comes into a quoted value finds an end or not by what
follows from there. -/
theorem closes_append_congr {quote : Option Char} {a : Text} {q : Char}
    (ha : quoteAfter quote a = some q) {y z : Text}
    (hyz : Closes (some q) y ↔ Closes (some q) z) :
    Closes quote (a ++ y) ↔ Closes quote (a ++ z) := by
  induction a generalizing quote with
  | nil =>
    cases ha
    exact hyz
  | cons c a ih =>
    -- the two texts differ at once only behind a quote, and `/` is none
    have hhead : quote = none ∧ c = '/' →
        (a ++ y).head? = (a ++ z).head? := by
      rintro ⟨rfl, rfl⟩
      cases a with
      | nil => cases ha
      | cons d a => rfl
    rw [List.cons_append, List.cons_append, closes_cons, closes_cons, ih ha]
    refine or_congr_left (and_congr_right fun hquote =>
      and_congr_right fun hc => ?_)
    rw [hhead ⟨hquote, hc⟩]

section

variable {β : Type} {stop : Text → Option (Hit β)}

/-- The reader stops outside quoted values: if at once behind a character of
a quoted value, that was its quote. -/
theorem eq_quote_of_until {q c : Char} {s : Text} {h : Hit β}
    (hs : attributesUntil stop (quoteBehind (some q) c) s = some ([], h)) :
    c = q := by
  have hnone := attributeTextFrom_nil.1 (attributeTextFrom_of_until hs).1
  rw [quoteBehind_some] at hnone
  split at hnone
  · assumption
  · cases hnone

/-- Within quotes, no end is looked for. -/
theorem until_some_cons (q c : Char) (s : Text) :
    attributesUntil stop (some q) (c :: s)
      = (attributesUntil stop (quoteBehind (some q) c) s).map
        fun r => (c :: r.1, r.2) := rfl

/-- Outside quotes, what is no end is read over. -/
theorem until_none_cons {c : Char} {s : Text} (hnone : stop (c :: s) = none)
    (hmarks : ¬ (c = '<' ∨ c = '>')) :
    attributesUntil stop none (c :: s)
      = (attributesUntil stop (quoteBehind none c) s).map
        fun r => (c :: r.1, r.2) := by
  rw [attributesUntil, hnone]
  dsimp only
  rw [if_neg hmarks]
  simp only [quoteBehind_none, isQuote_iff]

/-- The reader gets through a text by passing over characters up to an end,
which it sees outside quoted values. -/
theorem until_induction
    {motive : Option Char → Text → Text → Prop} {h : Hit β}
    (stops : ∀ s, stop s = some h → motive none s [])
    (within : ∀ q c s a, isQuote q = true
      → attributesUntil stop (quoteBehind (some q) c) s = some (a, h)
      → motive (quoteBehind (some q) c) s a → motive (some q) (c :: s) (c :: a))
    (outside : ∀ c s a, stop (c :: s) = none → c ≠ '<' → c ≠ '>'
      → attributesUntil stop (quoteBehind none c) s = some (a, h)
      → motive (quoteBehind none c) s a → motive none (c :: s) (c :: a))
    {quote : Option Char} (hstate : IsQuoteState quote) {s a : Text}
    (hs : attributesUntil stop quote s = some (a, h)) :
    motive quote s a := by
  induction s generalizing quote a with
  | nil => simp [attributesUntil] at hs
  | cons c s ih =>
    cases quote with
    | some q =>
      rw [until_some_cons] at hs
      obtain ⟨⟨b, e⟩, hread, he⟩ := Option.map_eq_some_iff.1 hs
      cases he
      exact within q c s b (hstate q rfl) hread (ih (hstate.behind c) hread)
    | none =>
      cases hstop : stop (c :: s) with
      | some e =>
        rw [until_of_stop hstop] at hs
        cases hs
        exact stops _ hstop
      | none =>
        by_cases hmarks : c = '<' ∨ c = '>'
        · rw [attributesUntil, hstop] at hs
          dsimp only at hs
          rw [if_pos hmarks] at hs
          cases hs
        · rw [until_none_cons hstop hmarks] at hs
          obtain ⟨⟨b, e⟩, hread, he⟩ := Option.map_eq_some_iff.1 hs
          cases he
          obtain ⟨hopen, hclose⟩ := not_or.1 hmarks
          exact outside c s b hstop hopen hclose hread
            (ih (hstate.behind c) hread)

/-- Attributes that were read up to the first end hold none themselves. If
only `>` follows, there is an end if they end in a slash. -/
theorem closes_of_until_iff (hslash : ∀ s, stop ('/' :: '>' :: s) ≠ none)
    {quote : Option Char} (hstate : IsQuoteState quote) {s a : Text}
    {h : Hit β} (hs : attributesUntil stop quote s = some (a, h)) (z : Text) :
    Closes quote (a ++ '>' :: z) ↔ a.getLast? = some '/' := by
  refine until_induction (motive := fun quote _ a =>
    Closes quote (a ++ '>' :: z) ↔ a.getLast? = some '/')
    ?stops ?within ?outside hstate hs
  case stops =>
    intro s hstop
    simp [closes_cons]
  case within =>
    intro q c s a hq hread ih
    rw [List.cons_append, closes_cons, ih]
    cases a with
    | nil =>
      have hc : c ≠ '/' := by
        rintro rfl
        rw [← eq_quote_of_until hread] at hq
        cases hq
      simp [hc]
    | cons d a => simp
  case outside =>
    intro c s a hstop hopen hclose hread ih
    rw [List.cons_append, closes_cons, ih]
    cases a with
    | nil => simp [hopen, hclose]
    | cons d a =>
      -- behind a slash `>` would have been the end
      have hfirst : ¬ (c = '/' ∧ d = '>') := by
        rintro ⟨rfl, rfl⟩
        obtain ⟨-, r, rfl, -⟩ := attributeTextFrom_of_until hread
        exact hslash _ hstop
      simp only [List.cons_append, List.head?_cons, Option.some.injEq,
        true_and, hfirst, false_or, List.getLast?_cons_cons]
      exact and_iff_right fun _ => ⟨hopen, hclose⟩

/-- If blanks before an end belong to it, attributes do not end with one. -/
theorem isBlank_getLast_of_until (hblank : ∀ c s, isBlank c = true →
      stop s ≠ none → stop (c :: s) ≠ none)
    {quote : Option Char} (hstate : IsQuoteState quote) {s a : Text}
    {h : Hit β} (hs : attributesUntil stop quote s = some (a, h)) :
    ∀ c ∈ a.getLast?, isBlank c = false := by
  refine until_induction (motive := fun _ _ a =>
    ∀ c ∈ a.getLast?, isBlank c = false) ?stops ?within ?outside hstate hs
  case stops => exact fun _ _ => nofun
  case within =>
    intro q c s a hq hread ih
    cases a with
    | nil =>
      rintro _ ⟨⟩
      rw [eq_quote_of_until hread]
      exact isBlank_of_isQuote hq
    | cons d a => exact ih
  case outside =>
    intro c s a hstop hopen hclose hread ih
    cases a with
    | nil =>
      rintro _ ⟨⟩
      obtain ⟨-, r, hr, hend⟩ := attributeTextFrom_of_until hread
      have hsome : stop s ≠ none := by
        rw [hr, List.nil_append, hend]
        exact Option.some_ne_none h
      rw [← Bool.not_eq_true]
      exact fun hc => hblank c s hc hsome hstop
    | cons d a => exact ih

end

end ComponentMarkdown.Markup
