/-
Markup whatever the line ends. A return and a line feed are blanks, and no
reader of markup tells blanks apart: quoted values, opening tags, the ends
of tags and code spans are found where they were, with a return before each
of their line feeds.

There is one exception, and it does not matter in the end. Behind a name the
reader of attributes takes the first blank unseen; where that is a return,
the line feed behind it may already belong to the end of the tag. The
attributes are then the same but for the blanks at their end
(`attributes?_crlf`).
-/
import ComponentMarkdown.Proofs.Markup.Attributes
import ComponentMarkdown.Proofs.Markup.CodeSpan
import ComponentMarkdown.Proofs.Markup.Opening
import ComponentMarkdown.Proofs.Splice.LineEnds

namespace ComponentMarkdown.Markup

open Text

-- ======================================================= quoted values

/-- Neither character of a line end is a quote, a bracket or visible. -/
theorem ne_lineEnd {p : Char → Bool} {c : Char} (hc : p c = true)
    (hreturn : p '\r' = false) (hfeed : p '\n' = false) :
    c ≠ '\r' ∧ c ≠ '\n' := by
  constructor <;> rintro rfl
  · rw [hreturn] at hc
    cases hc
  · rw [hfeed] at hc
    cases hc

/-- A quoted value is found with and without returns. -/
theorem through?_crlf {close : Char} (hclose : close ≠ '\r' ∧ close ≠ '\n')
    (s : Text) : through? close (crlf s) = (through? close s).map crlf := by
  induction s with
  | nil => rfl
  | cons c s ih =>
    by_cases hc : c = '\n'
    · subst hc
      rw [crlf_feed, through?, through?, through?, if_neg (Ne.symm hclose.1),
        if_neg (Ne.symm hclose.2), if_neg (Ne.symm hclose.2), ih,
        Option.map_map, Option.map_map, Option.map_map]
      rfl
    · rw [crlf_char hc, through?, through?]
      split
      · exact congrArg some (crlf_char hc []).symm
      · rw [ih, Option.map_map, Option.map_map]
        refine congrArg (Option.map · _) (funext fun t => ?_)
        exact (crlf_char hc t).symm

/-- A quoted value starts with its quote and has returns only inside. -/
theorem quoted?_crlf (c : Char) (t : Text) :
    (quoted? (c :: t) = none → quoted? (c :: crlf t) = none)
      ∧ ∀ u, quoted? (c :: t) = some u →
        ∃ inner, u = c :: inner ∧ quoted? (c :: crlf t) = some (c :: crlf inner)
      := by
  rw [quoted?, quoted?]
  by_cases hc : isQuote c = true
  · rw [if_pos hc, if_pos hc,
      through?_crlf (ne_lineEnd hc (by decide) (by decide))]
    cases through? c t with
    | none => exact ⟨fun _ => rfl, by simp⟩
    | some inner =>
      refine ⟨by simp, fun u h => ?_⟩
      cases h
      exact ⟨inner, rfl, rfl⟩
  · rw [if_neg hc, if_neg hc]
    exact ⟨fun _ => rfl, by simp⟩

section

variable {α : Type} {sc : Scanner (Option α)} {scan : Text → Option (Hit α)}
  {Alike : α → α → Prop}

/-- Passing over quoted values, a scanner sees through returns if what it
scans for does. -/
theorem seesThrough_of_passesQuoted (hscan : PassesQuoted sc scan)
    (hreturns : ∀ t, scan ('\r' :: '\n' :: t) = none)
    (hmissed : ∀ {c t}, scan (c :: t) = none → scan (c :: crlf t) = none)
    (hfound : ∀ {c t tail v}, scan (c :: t) = some ⟨c :: tail, v⟩ →
      ∃ v', Alike v v' ∧ scan (c :: crlf t) = some ⟨c :: crlf tail, v'⟩) :
    sc.SeesThrough (Option.Rel Alike) := by
  refine ⟨fun t => ?_, fun {c t} h => ?_, fun {c t tail v} h => ?_⟩
  · rw [hscan, quoted?_eq_none (by decide), hreturns]
    rfl
  · rw [hscan] at h ⊢
    cases hquoted : quoted? (c :: t) with
    | some u =>
      rw [hquoted] at h
      cases h
    | none =>
      rw [hquoted] at h
      rw [(quoted?_crlf c t).1 hquoted]
      dsimp only at h ⊢
      rw [hmissed (Option.map_eq_none_iff.1 h)]
      rfl
  · rw [hscan] at h ⊢
    cases hquoted : quoted? (c :: t) with
    | some u =>
      rw [hquoted] at h
      obtain ⟨inner, rfl, hcrlf⟩ := (quoted?_crlf c t).2 u hquoted
      cases h
      rw [hcrlf]
      exact ⟨none, .none, rfl⟩
    | none =>
      rw [hquoted] at h
      rw [(quoted?_crlf c t).1 hquoted]
      dsimp only at h ⊢
      obtain ⟨⟨taken, value⟩, hm, heq⟩ := Option.map_eq_some_iff.1 h
      cases heq
      obtain ⟨v', hv, hm'⟩ := hfound hm
      exact ⟨some v', .some hv, by rw [hm']; rfl⟩

end

-- ========================================================= opening tags

namespace TagMode

/-- A quoted value ends with a quote. -/
def Sound : TagMode → Prop
  | .quoted q => isQuote q = true
  | _ => True

/-- The machine looks for no line end, whatever it reads. -/
theorem sound_of_step {mode next : TagMode} {c : Char} (hmode : mode.Sound)
    (h : mode.step c = .stay next) : next.Sound := by
  have hquote : c = '"' ∨ c = '\'' → isQuote c = true := isQuote_iff.2
  cases mode with
  | name => grind [step, Sound]
  | slash => grind [step]
  | attributes => grind [step, Sound]
  | quoted q => grind [step, Sound]
  | braces => grind [step, Sound]
  | nested => grind [step, Sound]

/-- At a return and a line feed the reader does what it does at the line
feed alone. -/
theorem step_lineEnd {mode : TagMode} (hmode : mode.Sound) :
    (mode.step '\r' = .fail ∧ mode.step '\n' = .fail)
      ∨ ∃ next, mode.step '\r' = .stay next ∧ next.step '\n' = .stay next
        ∧ mode.step '\n' = .stay next := by
  cases mode with
  | name => exact Or.inr ⟨.attributes, by decide, by decide, by decide⟩
  | slash => exact Or.inl ⟨by decide, by decide⟩
  | attributes => exact Or.inr ⟨.attributes, by decide, by decide, by decide⟩
  | quoted q =>
    obtain ⟨hreturn, hfeed⟩ :=
      ne_lineEnd hmode (by decide) (by decide)
    have hstay {c : Char} (hc : q ≠ c) :
        (quoted q).step c = .stay (.quoted q) := if_neg (Ne.symm hc)
    exact Or.inr ⟨.quoted q, hstay hreturn, hstay hfeed, hstay hfeed⟩
  | braces => exact Or.inr ⟨.braces, by decide, by decide, by decide⟩
  | nested => exact Or.inr ⟨.nested, by decide, by decide, by decide⟩

/-- What the machine takes of a text, it takes of the one with returns. -/
theorem takeTag_crlf {mode : TagMode} (hmode : mode.Sound) (s : Text) :
    takeTag mode (crlf s) = (takeTag mode s).map crlf := by
  induction s generalizing mode with
  | nil => rfl
  | cons c s ih =>
    by_cases hc : c = '\n'
    · subst hc
      rw [crlf_feed, takeTag, takeTag]
      rcases step_lineEnd hmode with ⟨hreturn, hfeed⟩
        | ⟨next, hreturn, hnext, hfeed⟩
      · rw [hreturn, hfeed]
        rfl
      · rw [hreturn, hfeed]
        dsimp only
        rw [takeTag, hnext]
        dsimp only
        rw [ih (sound_of_step hmode hfeed), Option.map_map, Option.map_map,
          Option.map_map]
        rfl
    · rw [crlf_char hc, takeTag, takeTag]
      cases hstep : mode.step c with
      | finish => exact congrArg some (crlf_char hc []).symm
      | fail => rfl
      | stay next =>
        dsimp only
        rw [ih (sound_of_step hmode hstep), Option.map_map, Option.map_map]
        refine congrArg (Option.map · _) (funext fun t => ?_)
        exact (crlf_char hc t).symm

end TagMode

/-- So there is the same tag, with returns. -/
theorem openingTag?_crlf (t : Text) :
    openingTag? ('<' :: crlf t) = (openingTag? ('<' :: t)).map crlf := by
  cases t with
  | nil => rfl
  | cons c t =>
    by_cases hc : c = '\n'
    · subst hc
      rfl
    · rw [crlf_char hc]
      rw [openingTag?, openingTag?]
      split
      · rw [TagMode.takeTag_crlf (show TagMode.name.Sound from trivial),
          Option.map_map, Option.map_map]
        refine congrArg (Option.map · _) (funext fun u => ?_)
        show _ = crlf ('<' :: c :: u)
        rw [crlf_char (by decide), crlf_char hc]
        rfl
      · rfl

/-- The scanner for opening tags sees through returns. -/
theorem seesThrough_openingTags :
    openingTags.SeesThrough fun _ _ => True := by
  refine ⟨fun t => rfl, fun {c t} h => ?_, fun {c t tail v} h => ?_⟩
  · have hnone : openingTag? (c :: t) = none := Option.map_eq_none_iff.1 h
    refine scan_openingTags_of_none ?_
    by_cases hc : c = '<'
    · subst hc
      rw [openingTag?_crlf, hnone]
      rfl
    · exact openingTag?_of_ne hc _
  · obtain ⟨tag, htag, heq⟩ := Option.map_eq_some_iff.1 h
    cases heq
    by_cases hc : c = '<'
    · subst hc
      refine ⟨(), trivial, scan_openingTags_of_some ?_⟩
      rw [openingTag?_crlf, htag]
      exact congrArg some (crlf_char (by decide) tail)
    · rw [openingTag?_of_ne hc] at htag
      cases htag

-- ======================================================== ends of tags

/-- Blanks in front of an end are read with it, one by one. -/
theorem selfClose?_cons {c : Char} (hc : isBlank c = true) (s : Text) :
    selfClose? (c :: s) = (selfClose? s).map (c :: ·) := by
  unfold selfClose?
  rw [List.dropWhile_cons_of_pos hc, List.takeWhile_cons_of_pos hc]
  split <;> rfl

/-- So does the test for the end of a self-closing tag. -/
theorem selfClose?_crlf (s : Text) :
    selfClose? (crlf s) = (selfClose? s).map crlf := by
  induction s with
  | nil => rfl
  | cons c s ih =>
    by_cases hc : c = '\n'
    · subst hc
      rw [crlf_feed, selfClose?_cons (by decide), selfClose?_cons (by decide),
        selfClose?_cons (by decide), ih, Option.map_map, Option.map_map,
        Option.map_map]
      rfl
    · rw [crlf_char hc]
      by_cases hblank : isBlank c = true
      · rw [selfClose?_cons hblank, selfClose?_cons hblank, ih, Option.map_map,
          Option.map_map]
        refine congrArg (Option.map · _) (funext fun t => ?_)
        exact (crlf_char hc t).symm
      · rw [Bool.not_eq_true] at hblank
        by_cases hslash : c = '/'
        · subst hslash
          cases s with
          | nil => rfl
          | cons d s =>
            by_cases hd : d = '\n'
            · subst hd
              rfl
            · rw [crlf_char hd]
              unfold selfClose?
              rw [List.dropWhile_cons_of_neg (by decide),
                List.dropWhile_cons_of_neg (by decide)]
              split
              · rename_i heq
                obtain ⟨rfl, -⟩ := List.cons.inj (List.cons.inj heq).2
                rfl
              · rename_i hnot
                split
                · rename_i heq
                  obtain ⟨rfl, -⟩ := List.cons.inj (List.cons.inj heq).2
                  exact absurd rfl (hnot (crlf s))
                · rfl
        · rw [selfClose?_of_ne hblank hslash, selfClose?_of_ne hblank hslash]
          rfl

section

variable {β : Type}

/-- An end with a return before every line feed. -/
def crlfHit (h : Hit β) : Hit β := ⟨crlf h.taken, h.value⟩

/-- To see the same ends with returns before the line feeds, and through a
line end in front of an end. -/
structure StopsAlike (stop : Text → Option (Hit β)) : Prop where
  nil : stop [] = none
  crlf : ∀ s, stop (Text.crlf s) = (stop s).map crlfHit
  returns : ∀ s, stop ('\r' :: '\n' :: s)
    = (stop ('\n' :: s)).map fun h => ⟨'\r' :: h.taken, h.value⟩
  feed : ∀ {s h}, stop ('\n' :: s) = some h →
    ∃ g, stop s = some g ∧ h = ⟨'\n' :: g.taken, g.value⟩

theorem StopsAlike.feed_eq_none {stop : Text → Option (Hit β)}
    (hstop : StopsAlike stop) {s : Text} (hs : stop ('\n' :: s) = none) :
    stop ('\n' :: Text.crlf s) = none := by
  have hcrlf := hstop.crlf ('\n' :: s)
  rw [hs, crlf_feed, hstop.returns] at hcrlf
  exact Option.map_eq_none_iff.1 hcrlf

theorem stopsAlike_selfClose (v : β) :
    StopsAlike fun s => (selfClose? s).map fun t => ⟨t, v⟩ where
  nil := rfl
  crlf s := by
    rw [selfClose?_crlf, Option.map_map, Option.map_map]
    rfl
  returns s := by
    rw [selfClose?_cons (by decide), Option.map_map, Option.map_map]
    rfl
  feed {s h} hs := by
    rw [selfClose?_cons (by decide), Option.map_map] at hs
    obtain ⟨t, ht, rfl⟩ := Option.map_eq_some_iff.1 hs
    exact ⟨⟨t, v⟩, by rw [ht]; rfl, rfl⟩

variable {stop : Text → Option (Hit β)} (hstop : StopsAlike stop)

include hstop

omit hstop in
/-- Inside a quoted value every character but its quote is passed over. -/
theorem until_inside {q c : Char} (hc : c ≠ q) (s : Text) :
    attributesUntil stop (some q) (c :: s)
      = (attributesUntil stop (some q) s).map fun r => (c :: r.1, r.2) := by
  rw [attributesUntil, if_neg hc]

/-- A line end is passed over where no end of the tag is seen behind it,
returned or not. -/
theorem until_lineEnd {s : Text} (hnone : stop ('\n' :: s) = none) :
    attributesUntil stop none ('\r' :: '\n' :: s)
        = ((attributesUntil stop none s).map fun r =>
          ('\r' :: '\n' :: r.1, r.2))
      ∧ attributesUntil stop none ('\n' :: s)
        = (attributesUntil stop none s).map fun r => ('\n' :: r.1, r.2) := by
  have hreturns : stop ('\r' :: '\n' :: s) = none := by
    rw [hstop.returns, hnone]
    rfl
  have hfeed := until_cons hnone (by decide) (by decide)
  refine ⟨?_, hfeed⟩
  rw [until_cons hreturns (by decide) (by decide), hfeed, Option.map_map]
  rfl

/-- Attributes are read alike up to their end. -/
theorem attributesUntil_crlf {quote : Option Char}
    (hquote : ∀ q, quote = some q → isQuote q = true) (s : Text) :
    attributesUntil stop quote (crlf s)
      = (attributesUntil stop quote s).map fun r =>
        (crlf r.1, crlfHit r.2) := by
  induction s generalizing quote with
  | nil => cases quote <;> rfl
  | cons c s ih =>
    cases quote with
    | some q =>
      obtain ⟨hreturn, hfeed⟩ :=
        ne_lineEnd (hquote q rfl) (by decide) (by decide)
      by_cases hc : c = '\n'
      · subst hc
        rw [crlf_feed, until_inside (Ne.symm hreturn),
          until_inside (Ne.symm hfeed), until_inside (Ne.symm hfeed),
          ih hquote, Option.map_map, Option.map_map, Option.map_map]
        rfl
      · rw [crlf_char hc, attributesUntil, attributesUntil, ih ?_,
          Option.map_map, Option.map_map]
        · refine congrArg (Option.map · _) (funext fun r => ?_)
          exact congrArg (·, crlfHit r.2) (crlf_char hc r.1).symm
        · intro q' hq'
          split at hq'
          · cases hq'
          · exact hquote q' hq'
    | none =>
      have hcrlf := hstop.crlf (c :: s)
      by_cases hc : c = '\n'
      · subst hc
        cases hs : stop ('\n' :: s) with
        | some h =>
          rw [hs, crlf_feed] at hcrlf
          rw [until_of_stop hs, crlf_feed, until_of_stop hcrlf]
          rfl
        | none =>
          rw [crlf_feed, (until_lineEnd hstop (hstop.feed_eq_none hs)).1,
            (until_lineEnd hstop hs).2, ih hquote, Option.map_map,
            Option.map_map]
          rfl
      · rw [crlf_char hc] at hcrlf ⊢
        rw [attributesUntil, attributesUntil, hcrlf]
        cases stop (c :: s) with
        | some h => rfl
        | none =>
          dsimp only [Option.map_none]
          split
          · rfl
          · rw [ih ?_, Option.map_map, Option.map_map]
            · refine congrArg (Option.map · _) (funext fun r => ?_)
              exact congrArg (·, crlfHit r.2) (crlf_char hc r.1).symm
            · intro q hq
              split at hq
              · rename_i hquote
                cases hq
                exact isQuote_iff.2 hquote
              · cases hq

/-- Attributes that are the same but for the blanks at their end, and up to
their end all the same. -/
structure AttributesAlike (r r' : Text × Hit β) : Prop where
  value : r'.2.value = r.2.value
  trimEnd : r'.1.trimEnd = crlf r.1.trimEnd
  taken : r'.1 ++ r'.2.taken = crlf (r.1 ++ r.2.taken)

omit hstop in
theorem attributesAlike_crlf (r : Text × Hit β) :
    AttributesAlike r (crlf r.1, crlfHit r.2) where
  value := rfl
  trimEnd := trimEnd_crlf r.1
  taken := (crlf_append r.1 r.2.taken).symm

/-- A tag has attributes with returns exactly if it has them without, and they
are alike. -/
theorem attributes?_crlf (s : Text) :
    (attributes? stop s = none → attributes? stop (crlf s) = none)
      ∧ ∀ r, attributes? stop s = some r →
        ∃ r', attributes? stop (crlf s) = some r' ∧ AttributesAlike r r' := by
  cases s with
  | nil => exact ⟨id, by simp [attributes?]⟩
  | cons c s =>
    have huntil : attributesUntil stop none (crlf s) = _ :=
      attributesUntil_crlf hstop (fun q hq => by cases hq) s
    have hcrlf := hstop.crlf (c :: s)
    by_cases hc : c = '\n'
    · subst hc
      rw [crlf_feed, attributes?, attributes?, if_pos (by decide),
        if_pos (by decide)]
      cases hs : stop ('\n' :: s) with
      | some h =>
        -- the blank behind the name is the line feed, or else the return,
        -- and then the line feed is one of the blanks in front of the end
        obtain ⟨g, hg, rfl⟩ := hstop.feed hs
        rw [hs, crlf_feed, hstop.returns] at hcrlf
        obtain ⟨g', hg', heq⟩ := Option.map_eq_some_iff.1 hcrlf
        obtain ⟨htaken, hvalue⟩ := Hit.mk.inj heq
        have hthere : attributesUntil stop none s = some ([], g) := by
          cases s with
          | nil =>
            rw [hstop.nil] at hg
            cases hg
          | cons d s => exact until_of_stop hg
        rw [hthere, until_of_stop hg']
        refine ⟨by simp, fun u hu => ?_⟩
        cases hu
        exact ⟨_, rfl, hvalue, rfl, htaken⟩
      | none =>
        rw [(until_lineEnd hstop (hstop.feed_eq_none hs)).2, huntil]
        cases attributesUntil stop none s with
        | none => exact ⟨fun _ => rfl, by simp⟩
        | some r =>
          refine ⟨by simp, fun u hu => ?_⟩
          cases hu
          exact ⟨_, rfl, attributesAlike_crlf ('\n' :: r.1, r.2)⟩
    · rw [crlf_char hc] at hcrlf ⊢
      rw [attributes?, attributes?]
      split
      · rw [huntil]
        cases attributesUntil stop none s with
        | none => exact ⟨fun _ => rfl, by simp⟩
        | some r =>
          refine ⟨by simp, fun u hu => ?_⟩
          cases hu
          have halike := attributesAlike_crlf (c :: r.1, r.2)
          rw [crlf_char hc] at halike
          exact ⟨_, rfl, halike⟩
      · rw [hcrlf]
        cases stop (c :: s) with
        | none => exact ⟨fun _ => rfl, by simp⟩
        | some h =>
          refine ⟨by simp, fun u hu => ?_⟩
          cases hu
          exact ⟨_, rfl, attributesAlike_crlf ([], h)⟩

end

-- =========================================================== code spans

namespace CodeSplit

/-- A code span closes at the same run. -/
theorem closing?_crlf {n : Nat} (hn : n ≠ 0) (k : Nat) (s : Text) :
    closing? n k (crlf s) = (closing? n k s).map crlf := by
  induction s generalizing k with
  | nil =>
    rw [crlf_nil, closing?]
    split <;> rfl
  | cons c s ih =>
    by_cases hc : c = '\n'
    · subst hc
      rw [crlf_feed, closing?_of_ne (by decide), closing?_of_ne (by decide),
        closing?_of_ne (by decide), if_neg (Ne.symm hn), ih]
      split
      · rfl
      · rw [Option.map_map, Option.map_map, Option.map_map]
        rfl
    · have hmap (k : Nat) : (closing? n k (crlf s)).map (c :: ·)
          = ((closing? n k s).map (c :: ·)).map crlf := by
        rw [ih, Option.map_map, Option.map_map]
        refine congrArg (Option.map · _) (funext fun t => ?_)
        exact (crlf_char hc t).symm
      rw [crlf_char hc, closing?, closing?]
      split
      · exact hmap (k + 1)
      · split
        · rfl
        · exact hmap 0

/-- A cut text with a return before every line feed. -/
def withReturns (s : CodeSplit) : CodeSplit :=
  ⟨crlf s.head, s.tail.map fun p => (crlf p.1, crlf p.2)⟩

/-- Returns are put into a gap, -/
theorem withReturns_prepend (t : Text) (s : CodeSplit) :
    (prepend t s).withReturns = prepend (crlf t) s.withReturns := by
  unfold withReturns prepend
  rw [crlf_append]

/-- and into a span. -/
theorem withReturns_prependSpan (t : Text) (s : CodeSplit) :
    (prependSpan t s).withReturns = prependSpan (crlf t) s.withReturns := rfl

/-- Code spans are where they were. -/
theorem ofText_crlf (s : Text) : ofText (crlf s) = (ofText s).withReturns := by
  have htick : ('\x60' : Char) ≠ '\n' := by decide
  have hclass : ('\r' == '\x60') = ('\n' == '\x60') := by decide
  have hrun (rest : Text) : (crlf rest).takeWhile (· == '\x60')
      = rest.takeWhile (· == '\x60') := by
    rw [takeWhile_crlf hclass, crlf_takeWhile (by decide)]
  have hafter (rest : Text) : (crlf rest).dropWhile (· == '\x60')
      = crlf (rest.dropWhile (· == '\x60')) := dropWhile_crlf hclass rest
  have hcopy (rest : Text) : crlf ('\x60' :: rest.takeWhile (· == '\x60'))
      = '\x60' :: rest.takeWhile (· == '\x60') := by
    rw [crlf_char htick, crlf_takeWhile (by decide)]
  fun_induction ofText s with
  | case1 =>
    rw [crlf_nil, ofText]
    rfl
  | case2 rest after body run hc ih =>
    have hclosing : closing? run.length 0 (crlf after) = some (crlf body) := by
      rw [closing?_crlf (by simp [run]), hc]
      rfl
    have hdrop : (crlf after).drop (crlf body).length
        = crlf (after.drop body.length) := by
      obtain ⟨tail, htail⟩ := closing?_isPrefix hc
      rw [← htail, crlf_append, List.drop_left, List.drop_left]
    rw [crlf_char htick, ofText, if_pos rfl]
    dsimp only
    rw [hrun, hafter rest, hclosing]
    dsimp only
    rw [hdrop, ih, withReturns_prependSpan, crlf_append, hcopy]
  | case3 rest after run hc ih =>
    have hclosing : closing? run.length 0 (crlf after) = none := by
      rw [closing?_crlf (by simp [run]), hc]
      rfl
    rw [crlf_char htick, ofText, if_pos rfl]
    dsimp only
    rw [hrun, hafter rest, hclosing]
    dsimp only
    rw [ih, withReturns_prepend, hcopy]
  | case4 c rest hc ih =>
    rw [withReturns_prepend, ← ih]
    by_cases hfeed : c = '\n'
    · subst hfeed
      rw [crlf_feed, ofText_of_ne (by decide), ofText_of_ne (by decide)]
      rfl
    · rw [crlf_char hfeed, ofText_of_ne hc, crlf_char hfeed]
      rfl

end CodeSplit

end ComponentMarkdown.Markup
