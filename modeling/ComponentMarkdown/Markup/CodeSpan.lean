/-
Inline code spans: a run of backticks, text, and the next run of exactly
as many backticks. A run that no later run matches is literal text.

A text is seen as gaps and spans in turn, `g₀ s₁ g₁ … sₙ gₙ`, and can be
edited in the gaps only, from left to right with a shared state. Main
statement: gaps and spans, joined, are the text (`join_ofText`).
-/
import ComponentMarkdown.Splice

namespace ComponentMarkdown.Markup

/-- A text cut at its code spans: what precedes the first, then each span
with the gap behind it. -/
structure CodeSplit where
  head : Text
  tail : List (Text × Text)
  deriving DecidableEq, Repr

namespace CodeSplit

-- ===================================================== finding spans

/-- The text through the next run of exactly `n` backticks, where the
reader stands behind `k` backticks of a run. -/
def closing? (n k : Nat) : Text → Option Text
  | [] => if k = n then some [] else none
  | c :: rest =>
    if c = '\x60' then (closing? n (k + 1) rest).map (c :: ·)
    else if k = n then some []
    else (closing? n 0 rest).map (c :: ·)

theorem closing?_isPrefix {n k : Nat} {s t : Text}
    (h : closing? n k s = some t) : t <+: s := by
  induction s generalizing k t with
  | nil =>
    simp only [closing?] at h
    split at h
    · cases h
      exact List.nil_prefix
    · cases h
  | cons c s ih =>
    simp only [closing?] at h
    split at h
    · obtain ⟨u, hu, rfl⟩ := Option.map_eq_some_iff.1 h
      exact List.cons_prefix_cons.2 ⟨rfl, ih hu⟩
    · split at h
      · cases h
        exact List.nil_prefix
      · obtain ⟨u, hu, rfl⟩ := Option.map_eq_some_iff.1 h
        exact List.cons_prefix_cons.2 ⟨rfl, ih hu⟩

/-- Text in front of the first gap. -/
def prepend (t : Text) (s : CodeSplit) : CodeSplit := ⟨t ++ s.head, s.tail⟩

/-- A span in front, with an empty gap before it. -/
def prependSpan (span : Text) (s : CodeSplit) : CodeSplit :=
  ⟨[], (span, s.head) :: s.tail⟩

/-- Cuts a text at its code spans. -/
def ofText : Text → CodeSplit
  | [] => ⟨[], []⟩
  | c :: rest =>
    if c = '\x60' then
      let run := c :: rest.takeWhile (· == '\x60')
      let after := rest.dropWhile (· == '\x60')
      match closing? run.length 0 after with
      | some body =>
        prependSpan (run ++ body) (ofText (after.drop body.length))
      | none => prepend run (ofText after)
    else prepend [c] (ofText rest)
termination_by s => s.length
decreasing_by
  · have := dropWhile_length_le (· == '\x60') rest
    simp only [List.length_drop, List.length_cons]
    omega
  · have := dropWhile_length_le (· == '\x60') rest
    simp only [List.length_cons]
    omega
  · simp

/-- The text that gaps and spans make up. -/
def join (s : CodeSplit) : Text :=
  s.head ++ s.tail.flatMap fun p => p.1 ++ p.2

theorem join_prepend (t : Text) (s : CodeSplit) :
    (prepend t s).join = t ++ s.join := by
  simp [join, prepend]

theorem join_prependSpan (t : Text) (s : CodeSplit) :
    (prependSpan t s).join = t ++ s.join := by
  simp [join, prependSpan]

/-- Cutting loses nothing. -/
theorem join_ofText (s : Text) : (ofText s).join = s := by
  fun_induction ofText s with
  | case1 => rfl
  | case2 rest after body run hc ih =>
    obtain ⟨tail, ht⟩ := closing?_isPrefix hc
    have hd : after.drop body.length = tail := by rw [← ht]; simp
    rw [join_prependSpan, ih, hd, List.append_assoc, ht]
    simp only [run, after, List.cons_append,
      List.takeWhile_append_dropWhile]
  | case3 rest after run hc ih =>
    rw [join_prepend, ih]
    simp only [run, after, List.cons_append,
      List.takeWhile_append_dropWhile]
  | case4 c rest hc ih => rw [join_prepend, ih]; rfl

-- ====================================================== editing gaps

variable {σ : Type}

/-- Edits each gap behind a span, from left to right. -/
def editTail (edit : Text → σ → Edited × σ) :
    List (Text × Text) → σ → Edited × σ
  | [], st => (.unchanged [], st)
  | (span, gap) :: more, st =>
    let (new, st) := edit gap st
    let (rest, st) := editTail edit more st
    (⟨span ++ new.text ++ rest.text, new.count + rest.count⟩, st)

/-- Edits each gap, from left to right; the spans stay. -/
def editGaps (edit : Text → σ → Edited × σ) (s : CodeSplit) (st : σ) :
    Edited × σ :=
  let (new, st) := edit s.head st
  let (rest, st) := editTail edit s.tail st
  (⟨new.text ++ rest.text, new.count + rest.count⟩, st)

end CodeSplit

/-- Edits a text outside its code spans, from left to right with a shared
state. A text without code spans is edited as it is. If nothing is counted
in the gaps, the text stays. -/
def editOutsideCode {σ : Type} (edit : Text → σ → Edited × σ) (st : σ)
    (s : Text) : Edited × σ :=
  let split := CodeSplit.ofText s
  if split.tail.isEmpty then edit s st
  else
    let (new, st) := split.editGaps edit st
    (if new.count = 0 then .unchanged s else new, st)

end ComponentMarkdown.Markup
