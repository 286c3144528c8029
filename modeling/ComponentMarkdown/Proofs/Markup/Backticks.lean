/-
The maximal runs of backticks of a text, each given by the byte it starts at
and its length, and the code spans that these alone determine: a run opens a
span if a later run is as long, and the next one that is closes it
(`codeSpans`).

A run is maximal if no backtick stands before it or behind it, and the runs
of a text are exactly these (`mem_ofText_iff`), from left to right and with
something between them (`pairwise_ofText`).
-/
import ComponentMarkdown.Proofs.Segment.Fence
import ComponentMarkdown.Proofs.Text.Bytes

namespace ComponentMarkdown.Markup

open Text

/-- A run of backticks: the byte at which it starts, and how many there
are. -/
structure BacktickRun where
  start : Nat
  length : Nat
  deriving DecidableEq, Repr

/-- A stretch of bytes, from one offset up to another. -/
structure ByteRange where
  start : Nat
  stop : Nat
  deriving DecidableEq, Repr

namespace BacktickRun

/-- Where a run stops; a backtick takes one byte. -/
def stop (r : BacktickRun) : Nat := r.start + r.length

/-- Whether a run stands in a text, with no backtick before it or behind
it. -/
def Maximal (r : BacktickRun) (s : Text) : Prop :=
  0 < r.length ∧ ∃ before after,
    s = before ++ (List.replicate r.length '\x60' ++ after)
      ∧ r.start = before.byteLength
      ∧ before.getLast? ≠ some '\x60' ∧ after.head? ≠ some '\x60'

-- =========================================================== finding runs

/-- The runs of a text that starts at a byte offset. -/
def runsFrom (offset : Nat) : Text → List BacktickRun
  | [] => []
  | c :: rest =>
    if c = '\x60' then
      let run := c :: rest.takeWhile (· == '\x60')
      ⟨offset, run.length⟩
        :: runsFrom (offset + run.length) (rest.dropWhile (· == '\x60'))
    else runsFrom (offset + c.utf8Size) rest
termination_by s => s.length
decreasing_by
  · have := dropWhile_length_le (· == '\x60') rest
    simp only [List.length_cons]
    omega
  · simp

/-- The runs of a text, from left to right. -/
def ofText (s : Text) : List BacktickRun := runsFrom 0 s

/-- There is no run where no backtick stands. -/
theorem runsFrom_of_ne {c : Char} (hc : c ≠ '\x60') (offset : Nat)
    (s : Text) :
    runsFrom offset (c :: s) = runsFrom (offset + c.utf8Size) s := by
  rw [runsFrom, if_neg hc]

/-- Backticks up to another character are one run. -/
theorem runsFrom_run {n : Nat} (hn : 0 < n) {s : Text}
    (hs : s.head? ≠ some '\x60') (offset : Nat) :
    runsFrom offset (List.replicate n '\x60' ++ s)
      = ⟨offset, n⟩ :: runsFrom (offset + n) s := by
  obtain ⟨m, rfl⟩ : ∃ m, n = m + 1 := ⟨n - 1, by omega⟩
  rw [List.replicate_succ, List.cons_append, runsFrom, if_pos rfl]
  dsimp only
  rw [Fence.takeWhile_replicate_append hs, Fence.dropWhile_replicate_append hs,
    List.length_cons, List.length_replicate]

/-- A text is nothing, a run and a text that does not prolong it, or another
character and a text. -/
theorem runs_induction {motive : Nat → Text → Prop}
    (nil : ∀ offset, motive offset [])
    (run : ∀ offset n s, 0 < n → s.head? ≠ some '\x60' →
      motive (offset + n) s → motive offset (List.replicate n '\x60' ++ s))
    (char : ∀ offset c s, c ≠ '\x60' → motive (offset + c.utf8Size) s →
      motive offset (c :: s)) (offset : Nat) (s : Text) : motive offset s := by
  induction hlen : s.length using Nat.strongRecOn generalizing offset s with
  | _ len ih =>
    obtain ⟨rest, hs, hrest⟩ := Fence.exists_run '\x60' s
    generalize Fence.runLength '\x60' s = n at hs
    have hlength := congrArg List.length hs
    rw [List.length_append, List.length_replicate] at hlength
    by_cases hn : 0 < n
    · rw [hs]
      exact run offset n rest hn hrest (ih _ (by omega) _ _ rfl)
    · rw [Nat.eq_zero_of_not_pos hn, List.replicate_zero,
        List.nil_append] at hs
      rw [hs]
      cases rest with
      | nil => exact nil offset
      | cons c rest =>
        have hc : c ≠ '\x60' := fun heq => hrest (by rw [heq]; rfl)
        rw [List.length_cons] at hlength
        exact char offset c rest hc (ih _ (by omega) _ _ rfl)

-- ======================================================== maximal runs

theorem byteLength_replicate (n : Nat) :
    byteLength (List.replicate n '\x60') = n := by
  induction n with
  | zero => rfl
  | succ n ih =>
    rw [List.replicate_succ, byteLength_cons, ih, Nat.add_comm]
    rfl

/-- Whether a run is maximal in a text that starts at a byte offset. -/
def MaximalFrom (offset : Nat) (s : Text) (r : BacktickRun) : Prop :=
  0 < r.length ∧ ∃ before after,
    s = before ++ (List.replicate r.length '\x60' ++ after)
      ∧ r.start = offset + before.byteLength
      ∧ before.getLast? ≠ some '\x60' ∧ after.head? ≠ some '\x60'

theorem not_maximalFrom_nil (offset : Nat) (r : BacktickRun) :
    ¬ MaximalFrom offset [] r := by
  rintro ⟨hpos, before, after, h, -⟩
  have hlength := congrArg List.length h
  simp only [List.length_append, List.length_replicate,
    List.length_nil] at hlength
  omega

/-- Something stands before a run in a text that starts with no backtick. -/
theorem ne_nil_of_run {n : Nat} (hn : 0 < n) {s before after : Text}
    (hs : s.head? ≠ some '\x60')
    (h : s = before ++ (List.replicate n '\x60' ++ after)) : before ≠ [] := by
  rintro rfl
  obtain ⟨m, rfl⟩ : ∃ m, n = m + 1 := ⟨n - 1, by omega⟩
  rw [h] at hs
  exact hs rfl

theorem getLast?_append {b : Text} (hb : b ≠ []) (a : Text) :
    (a ++ b).getLast? = b.getLast? := by
  rw [List.getLast?_append, List.getLast?_eq_some_getLast hb, Option.some_or]

/-- A maximal run stands behind a character that is no backtick, as it stands
without it. -/
theorem maximalFrom_cons_iff {c : Char} (hc : c ≠ '\x60') {offset : Nat}
    {s : Text} {r : BacktickRun} :
    MaximalFrom offset (c :: s) r ↔ MaximalFrom (offset + c.utf8Size) s r := by
  refine and_congr_right fun hpos => ?_
  constructor
  · rintro ⟨before, after, h, hstart, hbefore, hafter⟩
    have hne : before ≠ [] :=
      ne_nil_of_run hpos (by simpa using hc) h
    obtain ⟨d, before, rfl⟩ := List.exists_cons_of_ne_nil hne
    obtain ⟨rfl, rfl⟩ := List.cons.inj h
    refine ⟨before, after, rfl, ?_, ?_, hafter⟩
    · rw [hstart, byteLength_cons, Nat.add_assoc]
    · by_cases hnil : before = []
      · simp [hnil]
      · rw [← getLast?_append hnil [c]]
        exact hbefore
  · rintro ⟨before, after, rfl, hstart, hbefore, hafter⟩
    refine ⟨c :: before, after, rfl, ?_, ?_, hafter⟩
    · rw [hstart, byteLength_cons, Nat.add_assoc]
    · by_cases hnil : before = []
      · simpa [hnil] using hc
      · rw [← List.singleton_append, getLast?_append hnil]
        exact hbefore

/-- A run at the head of a text is maximal there in full or not at all. -/
theorem eq_of_maximalFrom_head {n offset : Nat} {s after : Text}
    {r : BacktickRun} (hs : s.head? ≠ some '\x60')
    (hafter : after.head? ≠ some '\x60') (hstart : r.start = offset)
    (h : List.replicate n '\x60' ++ s
      = List.replicate r.length '\x60' ++ after) : r = ⟨offset, n⟩ := by
  have htake := congrArg (List.takeWhile (· == '\x60')) h
  rw [Fence.takeWhile_replicate_append hs,
    Fence.takeWhile_replicate_append hafter] at htake
  have hlength := congrArg List.length htake
  rw [List.length_replicate, List.length_replicate] at hlength
  rw [← hstart, hlength]

/-- A maximal run is the one in front, or stands behind it. -/
theorem maximalFrom_run_iff {n : Nat} (hn : 0 < n) {s : Text}
    (hs : s.head? ≠ some '\x60') {offset : Nat} {r : BacktickRun} :
    MaximalFrom offset (List.replicate n '\x60' ++ s) r
      ↔ r = ⟨offset, n⟩ ∨ MaximalFrom (offset + n) s r := by
  constructor
  · rintro ⟨hpos, before, after, h, hstart, hbefore, hafter⟩
    by_cases hnil : before = []
    · rw [hnil, List.nil_append] at h
      rw [hnil, byteLength_nil, Nat.add_zero] at hstart
      exact Or.inl (eq_of_maximalFrom_head hs hafter hstart h)
    · right
      rcases List.append_eq_append_iff.1 h with ⟨x, rfl, hx⟩ | ⟨x, hx, -⟩
      · refine ⟨hpos, x, after, hx, ?_, ?_, hafter⟩
        · rw [hstart, byteLength_append, byteLength_replicate, Nat.add_assoc]
        · rw [getLast?_append (ne_nil_of_run hpos hs hx)] at hbefore
          exact hbefore
      · -- nothing but backticks would stand before the run
        have hlast : before.getLast hnil = '\x60' :=
          List.eq_of_mem_replicate
            (hx ▸ List.mem_append_left x (List.getLast_mem hnil))
        rw [List.getLast?_eq_some_getLast hnil, hlast] at hbefore
        exact absurd rfl hbefore
  · rintro (rfl | ⟨hpos, before, after, h, hstart, hbefore, hafter⟩)
    · exact ⟨hn, [], s, rfl, rfl, by simp, hs⟩
    · refine ⟨hpos, List.replicate n '\x60' ++ before, after, ?_, ?_, ?_,
        hafter⟩
      · rw [h, List.append_assoc]
      · rw [hstart, byteLength_append, byteLength_replicate, Nat.add_assoc]
      · rw [getLast?_append (ne_nil_of_run hpos hs h)]
        exact hbefore

/-- A run is among those of a text exactly if it is maximal there. -/
theorem mem_runsFrom_iff {r : BacktickRun} (offset : Nat) (s : Text) :
    r ∈ runsFrom offset s ↔ MaximalFrom offset s r := by
  induction offset, s using runs_induction with
  | nil offset =>
    rw [runsFrom]
    exact iff_of_false List.not_mem_nil (not_maximalFrom_nil offset r)
  | run offset n s hn hs ih =>
    rw [runsFrom_run hn hs, List.mem_cons, ih, maximalFrom_run_iff hn hs]
  | char offset c s hc ih =>
    rw [runsFrom_of_ne hc, ih, maximalFrom_cons_iff hc]

/-- The runs of a text are the maximal ones. -/
theorem mem_ofText_iff {r : BacktickRun} (s : Text) :
    r ∈ ofText s ↔ r.Maximal s := by
  unfold ofText Maximal
  rw [mem_runsFrom_iff]
  unfold MaximalFrom
  simp only [Nat.zero_add]

/-- Runs are in order and do not meet. -/
theorem pairwise_runsFrom (offset : Nat) (s : Text) :
    (runsFrom offset s).Pairwise fun a b => a.stop < b.start := by
  induction offset, s using runs_induction with
  | nil offset =>
    rw [runsFrom]
    exact .nil
  | char offset c s hc ih =>
    rw [runsFrom_of_ne hc]
    exact ih
  | run offset n s hn hs ih =>
    rw [runsFrom_run hn hs]
    refine List.pairwise_cons.2 ⟨fun r hr => ?_, ih⟩
    obtain ⟨hpos, before, after, h, hstart, -⟩ :=
      (mem_runsFrom_iff _ _).1 hr
    have hbefore := byteLength_pos (ne_nil_of_run hpos hs h)
    show offset + n < r.start
    omega

/-- Runs come from left to right, with something between them. -/
theorem pairwise_ofText (s : Text) :
    (ofText s).Pairwise fun a b => a.stop < b.start :=
  pairwise_runsFrom 0 s

-- ========================================================== code spans

/-- The code spans that some runs make up: from a run through the next one
of its length, and on behind that; a run without one is passed over. -/
def codeSpans : List BacktickRun → List ByteRange
  | [] => []
  | r :: later =>
    match _h : later.dropWhile (·.length != r.length) with
    | [] => codeSpans later
    | close :: rest => ⟨r.start, close.stop⟩ :: codeSpans rest
termination_by runs => runs.length
decreasing_by
  · simp
  · have hle := dropWhile_length_le
      (fun x : BacktickRun => x.length != r.length) later
    rw [_h, List.length_cons] at hle
    simp only [List.length_cons]
    omega

/-- A run without one of its length behind it is no code. -/
theorem codeSpans_literal {r : BacktickRun} {later : List BacktickRun}
    (h : later.dropWhile (·.length != r.length) = []) :
    codeSpans (r :: later) = codeSpans later := by
  rw [codeSpans]
  split
  · rfl
  · rename_i heq
    rw [h] at heq
    cases heq

/-- A run up to the next of its length is a code span. -/
theorem codeSpans_closed {r close : BacktickRun}
    {later rest : List BacktickRun}
    (h : later.dropWhile (·.length != r.length) = close :: rest) :
    codeSpans (r :: later) = ⟨r.start, close.stop⟩ :: codeSpans rest := by
  rw [codeSpans]
  split
  · rename_i heq
    rw [h] at heq
    cases heq
  · rename_i heq
    rw [h] at heq
    cases heq
    rfl

end BacktickRun

end ComponentMarkdown.Markup
