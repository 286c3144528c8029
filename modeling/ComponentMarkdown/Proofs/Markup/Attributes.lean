/-
The attributes of a tag, as a grammar. Between the name of a tag and its
end stand quoted values and characters that are neither quotes nor angle
brackets (`AttributeText`). The reader that looks for the first end of the
tag takes nothing else (`attributeTextFrom_of_until`), and finds an end
behind any such text that an end follows (`isSome_until_append`).

Which of several ends is the first depends on the text before it. A reader
of ends that sees none before a visible character (`SeesEnds`) goes through
names and quoted values as a whole (`Passes`), and comes to the end behind
them.
-/
import ComponentMarkdown.Markup.Attributes
import ComponentMarkdown.Proofs.Markup.Quoted
import ComponentMarkdown.Proofs.Text.Blank

namespace ComponentMarkdown.Markup

-- ========================================================== the grammar

/-- Attributes as they can be written: quoted values, and characters that
are neither quotes nor angle brackets. -/
inductive AttributeText : Text → Prop
  | nil : AttributeText []
  | char {c : Char} {rest : Text} (hopen : c ≠ '<') (hclose : c ≠ '>')
      (hquote : isQuote c = false) (hrest : AttributeText rest) :
      AttributeText (c :: rest)
  | quoted {q : Char} {inner rest : Text} (hquote : isQuote q = true)
      (hinner : q ∉ inner) (hrest : AttributeText rest) :
      AttributeText (q :: (inner ++ q :: rest))

/-- Attributes behind attributes are attributes. -/
theorem AttributeText.append {a b : Text} (ha : AttributeText a)
    (hb : AttributeText b) : AttributeText (a ++ b) := by
  induction ha with
  | nil => exact hb
  | char hopen hclose hquote _ ih => exact .char hopen hclose hquote ih
  | quoted hquote hinner _ ih =>
    rw [List.cons_append, List.append_assoc, List.cons_append]
    exact .quoted hquote hinner ih

/-- Blanks are attributes. -/
theorem attributeText_of_blank {t : Text} (h : ∀ c ∈ t, isBlank c = true) :
    AttributeText t := by
  induction t with
  | nil => exact .nil
  | cons c t ih =>
    obtain ⟨hc, ht⟩ := List.forall_mem_cons.1 h
    refine .char ?_ ?_ (isQuote_of_isBlank hc) (ih ht)
    · rintro rfl
      exact absurd hc (by decide)
    · rintro rfl
      exact absurd hc (by decide)

-- =========================================================== the reader

variable {β : Type} {stop : Text → Option (Hit β)}

/-- Attributes from where the reader stands: inside a quoted value, the
rest of it comes first. -/
def AttributeTextFrom : Option Char → Text → Prop
  | none, a => AttributeText a
  | some q, a =>
    ∃ inner rest, a = inner ++ q :: rest ∧ q ∉ inner ∧ AttributeText rest

/-- The reader takes attributes, and stops in front of an end. -/
theorem attributeTextFrom_of_until {quote : Option Char} {s a : Text}
    {h : Hit β} (hs : attributesUntil stop quote s = some (a, h)) :
    AttributeTextFrom quote a ∧ ∃ r, s = a ++ r ∧ stop r = some h := by
  induction s generalizing quote a with
  | nil => simp [attributesUntil] at hs
  | cons c s ih =>
    cases quote with
    | some q =>
      simp only [attributesUntil] at hs
      obtain ⟨⟨b, e⟩, hr, he⟩ := Option.map_eq_some_iff.1 hs
      cases he
      obtain ⟨hb, r, hsr, hstop⟩ := ih hr
      refine ⟨?_, r, by rw [hsr, List.cons_append], hstop⟩
      by_cases hc : c = q
      · rw [if_pos hc] at hb
        exact ⟨[], b, by rw [hc, List.nil_append], List.not_mem_nil, hb⟩
      · rw [if_neg hc] at hb
        obtain ⟨inner, rest, hb, hinner, hrest⟩ := hb
        refine ⟨c :: inner, rest, by rw [hb, List.cons_append], ?_, hrest⟩
        rw [List.mem_cons]
        exact not_or.2 ⟨Ne.symm hc, hinner⟩
    | none =>
      simp only [attributesUntil] at hs
      split at hs
      · rename_i g hg
        cases hs
        exact ⟨.nil, c :: s, rfl, hg⟩
      · split at hs
        · cases hs
        · rename_i hbracket
          obtain ⟨hopen, hclose⟩ := not_or.1 hbracket
          obtain ⟨⟨b, e⟩, hr, he⟩ := Option.map_eq_some_iff.1 hs
          cases he
          obtain ⟨hb, r, hsr, hstop⟩ := ih hr
          refine ⟨?_, r, by rw [hsr, List.cons_append], hstop⟩
          cases hquote : isQuote c with
          | true =>
            rw [if_pos (isQuote_iff.1 hquote)] at hb
            obtain ⟨inner, rest, rfl, hinner, hrest⟩ := hb
            exact .quoted hquote hinner hrest
          | false =>
            rw [if_neg (not_or.2 (isQuote_eq_false_iff.1 hquote))] at hb
            exact .char hopen hclose hquote hb

/-- From within a quoted value, the reader comes to what follows it. -/
theorem until_quoted {q : Char} {inner : Text} (hinner : q ∉ inner)
    (rest : Text) :
    attributesUntil stop (some q) (inner ++ q :: rest)
      = (attributesUntil stop none rest).map
        fun r => (inner ++ q :: r.1, r.2) := by
  induction inner with
  | nil => simp [attributesUntil]
  | cons c inner ih =>
    rw [List.mem_cons] at hinner
    obtain ⟨hc, hinner⟩ := not_or.1 hinner
    rw [List.cons_append, attributesUntil, if_neg (Ne.symm hc), ih hinner,
      Option.map_map]
    rfl

/-- Where an end follows attributes, the reader finds one. -/
theorem isSome_until_append {a r : Text} (ha : AttributeText a)
    (hr : r ≠ []) (hstop : (stop r).isSome = true) :
    (attributesUntil stop none (a ++ r)).isSome = true := by
  induction ha with
  | nil =>
    obtain ⟨e, he⟩ := Option.isSome_iff_exists.1 hstop
    cases r with
    | nil => exact absurd rfl hr
    | cons c r =>
      rw [List.nil_append, attributesUntil, he]
      rfl
  | @char c rest hopen hclose hquote _ ih =>
    rw [List.cons_append, attributesUntil]
    split
    · rfl
    · rw [if_neg (not_or.2 ⟨hopen, hclose⟩), Option.isSome_map,
        if_neg (not_or.2 (isQuote_eq_false_iff.1 hquote))]
      exact ih
  | @quoted q inner rest hquote hinner _ ih =>
    rw [List.cons_append, List.append_assoc, List.cons_append,
      attributesUntil]
    split
    · rfl
    · have hbracket : ¬ (q = '<' ∨ q = '>') := by
        rintro (rfl | rfl) <;> exact absurd hquote (by decide)
      rw [if_neg hbracket, Option.isSome_map,
        if_pos (isQuote_iff.1 hquote), until_quoted hinner,
        Option.isSome_map]
      exact ih

/-- The reader behind a name takes attributes, which start with a blank if
there are any, and stops in front of an end. -/
theorem attributeText_of_attributes? {s a : Text} {h : Hit β}
    (hs : attributes? stop s = some (a, h)) :
    AttributeText a ∧ (∀ c ∈ a.head?, isBlank c = true)
      ∧ ∃ r, s = a ++ r ∧ stop r = some h := by
  cases s with
  | nil => cases hs
  | cons c s =>
    rw [attributes?] at hs
    split at hs
    · rename_i hc
      obtain ⟨⟨b, e⟩, hr, he⟩ := Option.map_eq_some_iff.1 hs
      cases he
      obtain ⟨hb, r, rfl, hstop⟩ := attributeTextFrom_of_until hr
      have hblank : AttributeText [c] :=
        attributeText_of_blank (List.forall_mem_singleton.2 hc)
      refine ⟨hblank.append hb, ?_, r, rfl, hstop⟩
      intro d hd
      cases hd
      exact hc
    · obtain ⟨e, hstop, he⟩ := Option.map_eq_some_iff.1 hs
      cases he
      exact ⟨.nil, (fun d hd => by cases hd), c :: s, rfl, hstop⟩

-- ========================================================= seeing ends

/-- Whether a reader of ends sees one at `/>`, blanks before it included,
and none before any other visible character but `>`; nor does it see `>`
behind a blank. -/
structure SeesEnds (stop : Text → Option (Hit β)) (v : β) : Prop where
  slash : ∀ blanks s, (∀ c ∈ blanks, isBlank c = true) →
    stop (blanks ++ '/' :: '>' :: s) = some ⟨blanks ++ ['/', '>'], v⟩
  visible : ∀ blanks c s, (∀ b ∈ blanks, isBlank b = true) →
    isBlank c = false → c ≠ '/' → c ≠ '>' → stop (blanks ++ c :: s) = none
  close : ∀ b blanks s, (∀ c ∈ b :: blanks, isBlank c = true) →
    stop (b :: blanks ++ '>' :: s) = none

/-- Whether the reader of attributes goes through a text as a whole. -/
def Passes (stop : Text → Option (Hit β)) (a : Text) : Prop :=
  ∀ s, attributesUntil stop none (a ++ s)
    = (attributesUntil stop none s).map fun r => (a ++ r.1, r.2)

theorem passes_nil : Passes stop [] := fun _ => Option.map_id_apply.symm

/-- What is read through both is read through one behind the other. -/
theorem Passes.append {a b : Text} (ha : Passes stop a) (hb : Passes stop b) :
    Passes stop (a ++ b) := by
  intro s
  rw [List.append_assoc, ha, hb, Option.map_map]
  refine congrArg (Option.map · _) (funext fun r => ?_)
  exact Prod.ext (List.append_assoc a b r.1).symm rfl

/-- A character that is neither a bracket nor a quote is passed over where
no end is seen. -/
theorem until_cons {c : Char} {s : Text} (hstop : stop (c :: s) = none)
    (hbracket : c ≠ '<' ∧ c ≠ '>') (hquote : isQuote c = false) :
    attributesUntil stop none (c :: s)
      = (attributesUntil stop none s).map fun r => (c :: r.1, r.2) := by
  have hnot : ¬ (c = '"' ∨ c = '\'') :=
    not_or.2 (isQuote_eq_false_iff.1 hquote)
  rw [attributesUntil, hstop]
  dsimp only
  rw [if_neg (not_or.2 hbracket), if_neg hnot]

/-- Reading stops where an end is seen. -/
theorem until_of_stop {c : Char} {s : Text} {h : Hit β}
    (hs : stop (c :: s) = some h) :
    attributesUntil stop none (c :: s) = some ([], h) := by
  rw [attributesUntil, hs]

/-- Behind the name the reader does not look for an end at a blank; where
there is none, this makes no difference. -/
theorem attributes?_eq_until {c : Char} {s : Text} (hc : isBlank c = true)
    (hnone : stop (c :: s) = none) :
    attributes? stop (c :: s) = attributesUntil stop none (c :: s) := by
  have hbracket : c ∉ ['<', '>'] := not_mem_of_class (by decide) hc
  rw [attributes?, if_pos hc, until_cons hnone
    (by simpa [not_or] using hbracket) (isQuote_of_isBlank hc)]

section

variable {v : β} (hstop : SeesEnds stop v)

include hstop

/-- Visible characters without a meaning of their own are passed over. -/
theorem passes_visible {t : Text} (ht : ∀ c ∈ t, isBlank c = false
    ∧ isQuote c = false ∧ c ∉ ['/', '>', '<']) : Passes stop t := by
  induction t with
  | nil => exact passes_nil
  | cons c t ih =>
    obtain ⟨⟨hblank, hquote, hmark⟩, ht⟩ := List.forall_mem_cons.1 ht
    simp only [List.mem_cons, List.not_mem_nil, or_false, not_or] at hmark
    obtain ⟨hslash, hclose, hopen⟩ := hmark
    intro s
    have hnone := hstop.visible [] c (t ++ s) (by simp) hblank hslash hclose
    rw [List.cons_append, until_cons hnone ⟨hopen, hclose⟩ hquote, ih ht,
      Option.map_map]
    rfl

/-- And so is a quoted value. -/
theorem passes_quoted {q : Char} (hq : isQuote q = true) {inner : Text}
    (hinner : q ∉ inner) : Passes stop (q :: (inner ++ [q])) := by
  intro s
  have hnot : q ∉ ['/', '>', '<'] := not_mem_of_class (by decide) hq
  simp only [List.mem_cons, List.not_mem_nil, or_false, not_or] at hnot
  have hnone := hstop.visible [] q (inner ++ q :: s) (by simp)
    (isBlank_of_isQuote hq) hnot.1 hnot.2.1
  rw [List.nil_append] at hnone
  rw [List.cons_append, List.append_assoc, List.singleton_append,
    attributesUntil, hnone]
  dsimp only
  rw [if_neg (not_or.2 ⟨hnot.2.2, hnot.2.1⟩), if_pos (isQuote_iff.1 hq),
    until_quoted hinner, Option.map_map]
  refine congrArg (Option.map · _) (funext fun r => ?_)
  simp

/-- Blanks before `>` are taken, where that is seen as an end. -/
theorem until_close {blanks : Text} (hblanks : ∀ c ∈ blanks, isBlank c = true)
    (s : Text) :
    attributesUntil stop none (blanks ++ '>' :: s)
      = (stop ('>' :: s)).map fun h => (blanks, h) := by
  induction blanks with
  | nil =>
    rw [List.nil_append, attributesUntil]
    cases stop ('>' :: s) with
    | some h => rfl
    | none => rfl
  | cons b blanks ih =>
    obtain ⟨hb, htail⟩ := List.forall_mem_cons.1 hblanks
    have hbracket : b ∉ ['<', '>'] := not_mem_of_class (by decide) hb
    have hnone := hstop.close b blanks s hblanks
    rw [List.cons_append] at hnone ⊢
    rw [until_cons hnone (by simpa [not_or] using hbracket)
      (isQuote_of_isBlank hb), ih htail, Option.map_map]
    rfl

/-- Behind a name the blanks before `>` are read as attributes. -/
theorem attributes?_blanks_close {blanks : Text}
    (hblanks : ∀ c ∈ blanks, isBlank c = true) (s : Text) :
    attributes? stop (blanks ++ '>' :: s)
      = (stop ('>' :: s)).map fun h => (blanks, h) := by
  cases blanks with
  | nil => rfl
  | cons b blanks =>
    have hb : isBlank b = true := hblanks b List.mem_cons_self
    exact (attributes?_eq_until hb (hstop.close b blanks s hblanks)).trans
      (until_close hstop hblanks s)

/-- Blanks before a slash belong to the end. -/
theorem until_slash {blanks : Text} (hblanks : ∀ c ∈ blanks, isBlank c = true)
    (s : Text) :
    attributesUntil stop none (blanks ++ '/' :: '>' :: s)
      = some ([], ⟨blanks ++ ['/', '>'], v⟩) := by
  have hend := hstop.slash blanks s hblanks
  cases blanks <;> exact until_of_stop hend

/-- Behind a name one of them is taken before an end is looked for. -/
theorem attributes?_blanks_slash {blanks : Text}
    (hblanks : ∀ c ∈ blanks, isBlank c = true) (s : Text) :
    attributes? stop (blanks ++ '/' :: '>' :: s)
      = some (blanks.take 1, ⟨blanks.drop 1 ++ ['/', '>'], v⟩) := by
  cases blanks with
  | nil =>
    have hend := hstop.slash [] s hblanks
    rw [List.nil_append] at hend
    show (stop ('/' :: '>' :: s)).map _ = _
    rw [hend]
    rfl
  | cons b blanks =>
    obtain ⟨hb, hrest⟩ := List.forall_mem_cons.1 hblanks
    rw [List.cons_append, attributes?, if_pos hb, until_slash hstop hrest]
    rfl

/-- Behind a name no visible character starts attributes. -/
theorem attributes?_of_visible {c : Char} (hc : isBlank c = false)
    (hend : c ≠ '/' ∧ c ≠ '>') (s : Text) :
    attributes? stop (c :: s) = none := by
  have hnone := hstop.visible [] c s (by simp) hc hend.1 hend.2
  rw [List.nil_append] at hnone
  rw [attributes?, if_neg (by rw [hc]; decide), hnone]
  rfl

end

-- ========================================================= the slash end

/-- What is read is blanks and the slash end. -/
theorem selfClose?_written {s t : Text} (h : selfClose? s = some t) :
    ∃ blanks, (∀ c ∈ blanks, isBlank c = true)
      ∧ t = blanks ++ ['/', '>'] := by
  unfold selfClose? at h
  split at h
  · cases h
    refine ⟨s.takeWhile isBlank, ?_, rfl⟩
    exact fun c hc => List.all_eq_true.1 List.all_takeWhile c hc
  · cases h

/-- A tag closes itself behind blanks, with a slash and `>`. -/
theorem selfClose?_eq_some {s t : Text} (h : selfClose? s = some t) :
    ∃ blanks after, (∀ c ∈ blanks, isBlank c = true)
      ∧ s = blanks ++ '/' :: '>' :: after := by
  unfold selfClose? at h
  split at h
  · rename_i after hafter
    refine ⟨s.takeWhile isBlank, after, ?_, ?_⟩
    · exact fun c hc => List.all_eq_true.1 List.all_takeWhile c hc
    · rw [← hafter, List.takeWhile_append_dropWhile]
  · cases h

/-- Blanks before the end are read with it. -/
theorem selfClose?_blanks {blanks : Text}
    (hblanks : ∀ c ∈ blanks, isBlank c = true) {c : Char}
    (hc : isBlank c = false) (s : Text) :
    selfClose? (blanks ++ c :: s)
      = (selfClose? (c :: s)).map (blanks ++ ·) := by
  have hdrop : (c :: s).dropWhile isBlank = c :: s :=
    List.dropWhile_cons_of_neg (by rw [hc]; decide)
  have htake : (c :: s).takeWhile isBlank = [] :=
    List.takeWhile_cons_of_neg (by rw [hc]; decide)
  unfold selfClose?
  rw [List.dropWhile_append_of_pos hblanks,
    List.takeWhile_append_of_pos hblanks, hdrop, htake, List.append_nil]
  split
  · rfl
  · rfl

theorem selfClose?_of_ne {c : Char} (hc : isBlank c = false) (hslash : c ≠ '/')
    (s : Text) : selfClose? (c :: s) = none := by
  unfold selfClose?
  rw [List.dropWhile_cons_of_neg (by rw [hc]; decide)]
  split
  · rename_i heq
    exact absurd (List.cons.inj heq).1 hslash
  · rfl

/-- The end of a self-closing tag is seen at its blanks or its slash. -/
theorem seesEnds_selfClose (v : β) :
    SeesEnds (fun s => (selfClose? s).map fun t => ⟨t, v⟩) v where
  slash blanks s hblanks := by
    rw [selfClose?_blanks hblanks (by decide)]
    rfl
  visible blanks c s hblanks hc hslash _ := by
    rw [selfClose?_blanks hblanks hc, selfClose?_of_ne hc hslash]
    rfl
  close b blanks s hblanks := by
    rw [selfClose?_blanks hblanks (by decide)]
    rfl

end ComponentMarkdown.Markup
