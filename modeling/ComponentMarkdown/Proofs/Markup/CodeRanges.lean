/-
Where the code spans of a text are. Read off the maximal runs of backticks,
they are the spans that a run and the next run of its length make up
(`ranges_ofText`), so nothing of the text but these runs matters.

# The search for the closing run

The reader looks for it character by character and counts the backticks it
has just passed. Between two runs its count is zero, and a run moves it as a
whole: the run closes the span if it is as long as the opening one, and is
passed over otherwise (`closing?_run`). So the search skips runs as
`dropWhile` does (`dropWhile_of_closing`), and each search starts where a
run starts or behind one.
-/
import ComponentMarkdown.Proofs.Markup.Backticks
import ComponentMarkdown.Proofs.Markup.CodeSpan
import ComponentMarkdown.Proofs.Text.Bytes

namespace ComponentMarkdown.Markup

open BacktickRun Text

namespace CodeSplit

-- ===================================================== the closing run

/-- A run closes a span as a whole or not at all. -/
theorem closing?_run {n : Nat} (hn : 0 < n) {s : Text}
    (hs : s.head? ≠ some '\x60') (k m : Nat) :
    closing? n k (List.replicate m '\x60' ++ s)
      = if k + m = n then some (List.replicate m '\x60')
        else (closing? n 0 s).map (List.replicate m '\x60' ++ ·) := by
  induction m generalizing k with
  | zero =>
    rw [List.replicate_zero, List.nil_append, Nat.add_zero]
    cases s with
    | nil =>
      rw [closing?, closing?, if_neg (Nat.ne_of_lt hn)]
      rfl
    | cons c s =>
      have hc : c ≠ '\x60' := fun heq => hs (by rw [heq]; rfl)
      rw [closing?_of_ne hc, closing?_of_ne hc, if_neg (Nat.ne_of_lt hn),
        Option.map_map]
      rfl
  | succ m ih =>
    rw [List.replicate_succ, List.cons_append, closing?, if_pos rfl, ih,
      show k + 1 + m = k + (m + 1) by omega]
    split
    · rfl
    · rw [Option.map_map]
      rfl

/-- Where nothing closes a span, no run has its length. -/
theorem dropWhile_of_not_closing {n : Nat} (hn : 0 < n) (offset : Nat)
    {s : Text} (h : closing? n 0 s = none) :
    (runsFrom offset s).dropWhile (·.length != n) = [] := by
  induction offset, s using runs_induction with
  | nil offset =>
    rw [runsFrom]
    rfl
  | run offset m s hm hs ih =>
    rw [closing?_run hn hs, Nat.zero_add] at h
    split at h
    · cases h
    · rename_i hne
      rw [runsFrom_run hm hs, List.dropWhile_cons_of_pos (by simpa using hne)]
      exact ih (Option.map_eq_none_iff.1 h)
  | char offset c s hc ih =>
    rw [closing?_of_ne hc, if_neg (Nat.ne_of_lt hn),
      Option.map_eq_none_iff] at h
    rw [runsFrom_of_ne hc]
    exact ih h

/-- What closes a span ends with the first run of its length. -/
theorem dropWhile_of_closing {n : Nat} (hn : 0 < n) (offset : Nat)
    {s body : Text} (h : closing? n 0 s = some body) :
    ∃ close, close.stop = offset + body.byteLength
      ∧ (runsFrom offset s).dropWhile (·.length != n)
        = close :: runsFrom (offset + body.byteLength)
          (s.drop body.length) := by
  induction offset, s using runs_induction generalizing body with
  | nil offset =>
    rw [closing?, if_neg (Nat.ne_of_lt hn)] at h
    cases h
  | run offset m s hm hs ih =>
    rw [closing?_run hn hs, Nat.zero_add] at h
    rw [runsFrom_run hm hs]
    split at h
    · rename_i heq
      cases h
      refine ⟨⟨offset, m⟩, ?_, ?_⟩
      · rw [byteLength_replicate]
        rfl
      · rw [List.dropWhile_cons_of_neg (by simpa using heq),
          byteLength_replicate, List.drop_left]
    · rename_i hne
      obtain ⟨rest, hrest, rfl⟩ := Option.map_eq_some_iff.1 h
      obtain ⟨close, hstop, hruns⟩ := ih hrest
      refine ⟨close, ?_, ?_⟩
      · rw [hstop, byteLength_append, byteLength_replicate, Nat.add_assoc]
      · rw [List.dropWhile_cons_of_pos (by simpa using hne), hruns,
          byteLength_append, byteLength_replicate, Nat.add_assoc,
          List.length_append, List.drop_append]
        simp
  | char offset c s hc ih =>
    rw [closing?_of_ne hc, if_neg (Nat.ne_of_lt hn)] at h
    obtain ⟨rest, hrest, rfl⟩ := Option.map_eq_some_iff.1 h
    obtain ⟨close, hstop, hruns⟩ := ih hrest
    refine ⟨close, ?_, ?_⟩
    · rw [hstop, byteLength_cons, Nat.add_assoc]
    · rw [runsFrom_of_ne hc, hruns, byteLength_cons, Nat.add_assoc]
      rfl

-- ============================================================== ranges

/-- The ranges of spans, each followed by a gap, in a text from a byte
offset on. -/
def rangesFrom (offset : Nat) : List (Text × Text) → List ByteRange
  | [] => []
  | (span, gap) :: more =>
    ⟨offset, offset + span.byteLength⟩
      :: rangesFrom (offset + (span ++ gap).byteLength) more

/-- The ranges of the code spans of a text that starts at a byte offset. -/
def rangesAt (offset : Nat) (s : CodeSplit) : List ByteRange :=
  rangesFrom (offset + s.head.byteLength) s.tail

/-- The byte ranges of the code spans of a text. -/
def ranges (s : CodeSplit) : List ByteRange := s.rangesAt 0

/-- Text in front of a split moves its spans. -/
theorem rangesAt_prepend (offset : Nat) (t : Text) (s : CodeSplit) :
    (prepend t s).rangesAt offset = s.rangesAt (offset + t.byteLength) := by
  unfold rangesAt prepend
  rw [byteLength_append, Nat.add_assoc]

/-- A span in front of a split is one more of its spans. -/
theorem rangesAt_prependSpan (offset : Nat) (span : Text) (s : CodeSplit) :
    (prependSpan span s).rangesAt offset
      = ⟨offset, offset + span.byteLength⟩
        :: s.rangesAt (offset + span.byteLength) := by
  unfold rangesAt prependSpan
  dsimp only
  rw [rangesFrom, byteLength_nil, Nat.add_zero, byteLength_append,
    Nat.add_assoc]

/-- The code spans are those that the runs of backticks make up. -/
theorem rangesAt_ofText (offset : Nat) (s : Text) :
    (ofText s).rangesAt offset = codeSpans (runsFrom offset s) := by
  have hrun (rest : Text) :
      byteLength ('\x60' :: rest.takeWhile (· == '\x60'))
        = ('\x60' :: rest.takeWhile (· == '\x60')).length := by
    have hall : '\x60' :: rest.takeWhile (· == '\x60')
        = List.replicate ('\x60' :: rest.takeWhile (· == '\x60')).length
          '\x60' := by
      refine List.eq_replicate_of_mem
        (List.forall_mem_cons.2 ⟨rfl, fun c hc => ?_⟩)
      exact eq_of_beq (List.all_eq_true.1 List.all_takeWhile c hc)
    rw [hall, byteLength_replicate, List.length_replicate]
  fun_induction ofText s generalizing offset with
  | case1 =>
    rw [runsFrom, codeSpans]
    rfl
  | case2 rest after body run hclosing ih =>
    obtain ⟨close, hstop, hruns⟩ := dropWhile_of_closing
      (Nat.succ_pos _) (offset + run.length) hclosing
    rw [runsFrom, if_pos rfl]
    dsimp only
    rw [codeSpans_closed hruns, hstop, rangesAt_prependSpan, ih,
      byteLength_append, hrun rest, Nat.add_assoc]
  | case3 rest after run hclosing ih =>
    have hruns := dropWhile_of_not_closing
      (Nat.succ_pos _) (offset + run.length) hclosing
    rw [runsFrom, if_pos rfl]
    dsimp only
    rw [codeSpans_literal hruns, rangesAt_prepend, ih, hrun rest]
  | case4 c rest hc ih =>
    rw [runsFrom_of_ne hc, rangesAt_prepend, ih]
    rfl

-- ====================================================== ranges in place

/-- A code span holds at least its backticks. -/
theorem ne_nil_of_mem_spans {s span : Text} (h : span ∈ (ofText s).spans) :
    span ≠ [] := by
  unfold spans at h
  fun_induction ofText s with
  | case1 => cases h
  | case2 rest after body run hclosing ih =>
    rcases List.mem_cons.1 h with rfl | h
    · exact List.cons_ne_nil _ _
    · exact ih h
  | case3 rest after run hclosing ih => exact ih h
  | case4 c rest hc ih => exact ih h

/-- No span starts before the place it is looked for from. -/
theorem le_of_mem_rangesFrom {offset : Nat} {tail : List (Text × Text)}
    {r : ByteRange} (h : r ∈ rangesFrom offset tail) : offset ≤ r.start := by
  induction tail generalizing offset with
  | nil => cases h
  | cons p tail ih =>
    rcases List.mem_cons.1 h with rfl | h
    · exact Nat.le_refl offset
    · exact Nat.le_trans (Nat.le_add_right _ _) (ih h)

/-- Ranges ascend and do not overlap. -/
theorem pairwise_rangesFrom (offset : Nat) (tail : List (Text × Text)) :
    (rangesFrom offset tail).Pairwise fun a b => a.stop ≤ b.start := by
  induction tail generalizing offset with
  | nil => exact .nil
  | cons p tail ih =>
    refine List.pairwise_cons.2 ⟨fun r hr => ?_, ih _⟩
    have hle := le_of_mem_rangesFrom hr
    rw [byteLength_append] at hle
    show offset + p.1.byteLength ≤ r.start
    omega

/-- A range holds something, and lies between two characters of the
text. -/
theorem of_mem_rangesFrom {before : Text} {tail : List (Text × Text)}
    (hspans : ∀ p ∈ tail, p.1 ≠ []) {r : ByteRange}
    (h : r ∈ rangesFrom before.byteLength tail) {s : Text}
    (hs : s = before ++ tail.flatMap fun p => p.1 ++ p.2) :
    r.start < r.stop ∧ s.IsBoundary r.start ∧ s.IsBoundary r.stop
      ∧ r.stop ≤ s.byteLength := by
  induction tail generalizing before with
  | nil => cases h
  | cons p tail ih =>
    obtain ⟨span, gap⟩ := p
    obtain ⟨hspan, hmore⟩ := List.forall_mem_cons.1 hspans
    rw [List.flatMap_cons, List.append_assoc] at hs
    rcases List.mem_cons.1 h with rfl | h
    · have hpos := byteLength_pos hspan
      have hstop : s = (before ++ span)
          ++ (gap ++ tail.flatMap fun p => p.1 ++ p.2) := by
        rw [hs, List.append_assoc]
      refine ⟨Nat.lt_add_of_pos_right hpos, ?_, ?_, ?_⟩
      · rw [hs]
        exact isBoundary_byteLength _ _
      · rw [hstop, ← byteLength_append]
        exact isBoundary_byteLength _ _
      · rw [hstop, byteLength_append, byteLength_append]
        exact Nat.le_add_right _ _
    · rw [← byteLength_append] at h
      exact ih hmore h (by rw [hs, List.append_assoc, List.append_assoc])

/-- The code spans of a text are the spans that its maximal runs of
backticks make up. They hold something, ascend without an overlap, and lie
in the text between two of its characters. -/
theorem ranges_ofText (s : Text) :
    (∀ r, r ∈ BacktickRun.ofText s ↔ r.Maximal s)
      ∧ (BacktickRun.ofText s).Pairwise (fun a b => a.stop < b.start)
      ∧ (ofText s).ranges = codeSpans (BacktickRun.ofText s)
      ∧ (ofText s).ranges.Pairwise (fun a b => a.stop ≤ b.start)
      ∧ ∀ r ∈ (ofText s).ranges, r.start < r.stop
        ∧ s.IsBoundary r.start ∧ s.IsBoundary r.stop
        ∧ r.stop ≤ s.utf8Encode.size := by
  refine ⟨fun r => mem_ofText_iff s, pairwise_ofText s, rangesAt_ofText 0 s,
    pairwise_rangesFrom _ _, fun r hr => ?_⟩
  have hspans : ∀ p ∈ (ofText s).tail, p.1 ≠ [] := fun p hp =>
    ne_nil_of_mem_spans (List.mem_map_of_mem hp)
  have hs : s = (ofText s).head
      ++ (ofText s).tail.flatMap fun p => p.1 ++ p.2 := (join_ofText s).symm
  unfold ranges rangesAt at hr
  rw [Nat.zero_add] at hr
  rw [size_utf8Encode]
  exact of_mem_rangesFrom hspans hr hs

end CodeSplit

end ComponentMarkdown.Markup
