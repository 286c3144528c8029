/-
What an edit outside code spans comes to. The text is `g₀ s₁ g₁ … sₙ gₙ`, its
code spans and the gaps around them, and the result is `g₀' s₁ g₁' … sₙ gₙ'`,
where the edit has been called on the gaps from left to right and each call
got the state that the one before it left behind
(`editOutsideCode_eq_rejoined`). A text without code spans and a text in
which nothing is counted take ways of their own, and neither shows.

All that is asked of the edit is that it gives a text back in which it counts
nothing; the conversion of callouts does.
-/
import ComponentMarkdown.Proofs.Markup.CodeRanges
import ComponentMarkdown.Proofs.Rule.Callouts
import ComponentMarkdown.Proofs.Splice.Composition

namespace ComponentMarkdown.Markup

open BacktickRun Text

variable {σ : Type}

-- ====================================================== gaps and spans

/-- Gaps and the spans between them, in turn; there is one gap more. -/
def alternate (gaps spans : List Text) : Text :=
  (List.zipWith (· ++ ·) gaps (spans ++ [[]])).flatten

theorem alternate_single (gap : Text) : alternate [gap] [] = gap := by
  simp [alternate]

/-- The first gap and the first span stand in front. -/
theorem alternate_cons (gap span : Text) (gaps spans : List Text) :
    alternate (gap :: gaps) (span :: spans)
      = gap ++ (span ++ alternate gaps spans) := by
  unfold alternate
  rw [List.cons_append, List.zipWith_cons_cons, List.flatten_cons,
    List.append_assoc]

-- ========================================================== the reference

/-- Edits texts one after the other, handing the state along. -/
def editEach (edit : Text → σ → Edited × σ) :
    List Text → σ → List Edited × σ
  | [], st => ([], st)
  | t :: ts, st =>
    let (new, st) := edit t st
    let (news, st) := editEach edit ts st
    (new :: news, st)

/-- Edited gaps with the spans between them: their texts in turn, and all
that was counted. -/
def rejoined (spans : List Text) (gaps : List Edited) : Edited :=
  ⟨alternate (gaps.map Edited.text) spans, (gaps.map Edited.count).sum⟩

theorem editEach_cons (edit : Text → σ → Edited × σ) (t : Text)
    (ts : List Text) (st : σ) :
    editEach edit (t :: ts) st
      = ((edit t st).1 :: (editEach edit ts (edit t st).2).1,
        (editEach edit ts (edit t st).2).2) := rfl

theorem rejoined_single (gap : Edited) : rejoined [] [gap] = gap := by
  unfold rejoined
  rw [List.map_singleton, List.map_singleton, alternate_single,
    List.sum_singleton]

/-- What becomes of the first gap stands in front, with its span, and adds its
count. -/
theorem rejoined_cons (gap : Edited) (span : Text) (gaps : List Edited)
    (spans : List Text) :
    rejoined (span :: spans) (gap :: gaps)
      = ⟨gap.text ++ (span ++ (rejoined spans gaps).text),
        gap.count + (rejoined spans gaps).count⟩ := by
  unfold rejoined
  rw [List.map_cons, List.map_cons, alternate_cons, List.sum_cons]

namespace CodeSplit

theorem spans_cons (head span gap : Text) (more : List (Text × Text)) :
    spans ⟨head, (span, gap) :: more⟩ = span :: spans ⟨gap, more⟩ := rfl

theorem gaps_cons (head span gap : Text) (more : List (Text × Text)) :
    gaps ⟨head, (span, gap) :: more⟩ = head :: gaps ⟨gap, more⟩ := rfl

/-- There is one more gap than spans. -/
theorem length_gaps (s : CodeSplit) :
    s.gaps.length = s.spans.length + 1 := by
  unfold gaps spans
  rw [List.length_cons, List.length_map, List.length_map]

/-- Gaps and spans in turn are the whole. -/
theorem alternate_gaps_spans (s : CodeSplit) :
    alternate s.gaps s.spans = s.join := by
  obtain ⟨head, tail⟩ := s
  induction tail generalizing head with
  | nil => exact (alternate_single head).trans (List.append_nil head).symm
  | cons p tail ih =>
    obtain ⟨span, gap⟩ := p
    rw [gaps_cons, spans_cons, alternate_cons, ih]
    unfold join
    rw [List.flatMap_cons, List.append_assoc]

variable (edit : Text → σ → Edited × σ)

/-- An edit of the gaps edits the first, and then those behind the first
span. -/
theorem editGaps_cons (head span gap : Text) (more : List (Text × Text))
    (st : σ) :
    editGaps edit ⟨head, (span, gap) :: more⟩ st
      = (⟨(edit head st).1.text
            ++ (span ++ (editGaps edit ⟨gap, more⟩ (edit head st).2).1.text),
          (edit head st).1.count
            + (editGaps edit ⟨gap, more⟩ (edit head st).2).1.count⟩,
        (editGaps edit ⟨gap, more⟩ (edit head st).2).2) := by
  refine Prod.ext (congrArg₂ Edited.mk ?_ rfl) rfl
  exact congrArg ((edit head st).1.text ++ ·) (List.append_assoc span _ _)

/-- Editing the gaps in turn and joining is joining the edited gaps. -/
theorem editGaps_eq_rejoined (s : CodeSplit) (st : σ) :
    editGaps edit s st
      = (rejoined s.spans (editEach edit s.gaps st).1,
        (editEach edit s.gaps st).2) := by
  obtain ⟨head, tail⟩ := s
  induction tail generalizing head st with
  | nil =>
    rw [editGaps_gap]
    exact Prod.ext (rejoined_single _).symm rfl
  | cons p tail ih =>
    obtain ⟨span, gap⟩ := p
    rw [editGaps_cons, ih, gaps_cons, spans_cons, editEach_cons,
      rejoined_cons]

-- ==================================================== spans in the text

/-- The spans are the slices of the text's bytes at their ranges. -/
theorem extract_rangesFrom (before : Text) (tail : List (Text × Text)) :
    (rangesFrom before.byteLength tail).map (fun r =>
        (before ++ tail.flatMap fun p => p.1 ++ p.2).utf8Encode.extract
          r.start r.stop)
      = tail.map fun p => p.1.utf8Encode := by
  induction tail generalizing before with
  | nil => rfl
  | cons p tail ih =>
    obtain ⟨span, gap⟩ := p
    have hrest := ih (before ++ (span ++ gap))
    rw [byteLength_append, List.append_assoc] at hrest
    rw [rangesFrom, List.map_cons, List.map_cons, List.flatMap_cons, hrest]
    refine congrArg (· :: _) ?_
    rw [List.append_assoc span, ← List.append_assoc before]
    exact extract_utf8Encode _ _ _

/-- The code spans of a split are the bytes from one run to its partner. -/
theorem utf8Encode_spans (s : Text) :
    (ofText s).spans.map List.utf8Encode
      = (codeSpans (BacktickRun.ofText s)).map fun r =>
        s.utf8Encode.extract r.start r.stop := by
  have hjoin : (ofText s).head ++ ((ofText s).tail.flatMap fun p => p.1 ++ p.2)
      = s := join_ofText s
  have hslices := extract_rangesFrom (ofText s).head (ofText s).tail
  rw [hjoin] at hslices
  unfold BacktickRun.ofText
  rw [← rangesAt_ofText, rangesAt, Nat.zero_add, hslices, spans, List.map_map]
  rfl

end CodeSplit

-- ============================================================ the whole

/-- Whichever way it takes, the edit is that of the gaps. -/
theorem editOutsideCode_eq_editGaps {edit : Text → σ → Edited × σ}
    (hedit : KeepsUncounted edit) (st : σ) (s : Text) :
    editOutsideCode edit st s = (CodeSplit.ofText s).editGaps edit st := by
  have htext := text_editOutsideCode hedit st s
  exact Prod.ext (congrArg₂ Edited.mk htext (count_editOutsideCode st s))
    (editOutsideCode_snd st s)

end ComponentMarkdown.Markup

namespace ComponentMarkdown

open Markup BacktickRun

/-- An edit outside code spans gives the edited gaps with the code spans
between them, byte for byte and in order, the sum of what is counted in the
gaps, and the text itself where that is nothing. The rule for callouts is
such an edit. -/
theorem editOutsideCode_eq_rejoined (s : Text) :
    alternate (CodeSplit.ofText s).gaps (CodeSplit.ofText s).spans = s
      ∧ (CodeSplit.ofText s).gaps.length
        = (CodeSplit.ofText s).spans.length + 1
      ∧ (CodeSplit.ofText s).spans.map List.utf8Encode
        = (codeSpans (BacktickRun.ofText s)).map (fun r =>
          s.utf8Encode.extract r.start r.stop)
      ∧ (∀ (σ : Type) (edit : Text → σ → Edited × σ), KeepsUncounted edit →
        ∀ st, editOutsideCode edit st s
            = (rejoined (CodeSplit.ofText s).spans
                (editEach edit (CodeSplit.ofText s).gaps st).1,
              (editEach edit (CodeSplit.ofText s).gaps st).2)
          ∧ ((editOutsideCode edit st s).1.count = 0 →
            (editOutsideCode edit st s).1.text = s))
      ∧ Rule.callouts.apply s
        = rejoined (CodeSplit.ofText s).spans
          (editEach convertCallouts (CodeSplit.ofText s).gaps []).1 := by
  have hgaps (σ : Type) (edit : Text → σ → Edited × σ)
      (hedit : KeepsUncounted edit) (st : σ) :
      editOutsideCode edit st s
        = (rejoined (CodeSplit.ofText s).spans
            (editEach edit (CodeSplit.ofText s).gaps st).1,
          (editEach edit (CodeSplit.ofText s).gaps st).2) := by
    rw [editOutsideCode_eq_editGaps hedit, CodeSplit.editGaps_eq_rejoined]
  refine ⟨?_, CodeSplit.length_gaps _, CodeSplit.utf8Encode_spans s, ?_, ?_⟩
  · rw [CodeSplit.alternate_gaps_spans, CodeSplit.join_ofText]
  · exact fun σ edit hedit st => ⟨hgaps σ edit hedit st,
      text_editOutsideCode_of_count_zero hedit⟩
  · exact congrArg Prod.fst (hgaps _ _ keepsUncounted_convertCallouts [])

/-- Writes `y` for each `x` of a gap, as long as a budget covers them all. -/
def respell (gap : Text) (budget : Nat) : Edited × Nat :=
  if gap.count 'x' ≤ budget then
    (⟨gap.map fun c => if c = 'x' then 'y' else c, gap.count 'x'⟩,
      budget - gap.count 'x')
  else (.unchanged gap, budget)

theorem keepsUncounted_respell : KeepsUncounted respell := by
  intro gap budget h
  unfold respell at h ⊢
  split at h
  · rename_i hbudget
    rw [if_pos hbudget]
    have hnone : 'x' ∉ gap := List.count_eq_zero.1 h
    refine (List.map_congr_left fun c hc => ?_).trans (List.map_id gap)
    exact if_neg fun hx : c = 'x' => hnone (hx ▸ hc)
  · rename_i hbudget
    rw [if_neg hbudget]
    rfl

/-- Three gaps between two code spans, where the budget that the first gap
leaves covers the last but not the one between. -/
theorem editOutsideCode_eq_rejoined_respell :
    KeepsUncounted respell
      ∧ editOutsideCode respell 2 "x \x60x\x60 xx \x60x\x60 x".toList
        = (rejoined ["\x60x\x60".toList, "\x60x\x60".toList]
            [⟨"y ".toList, 1⟩, ⟨" xx ".toList, 0⟩, ⟨" y".toList, 1⟩], 0) := by
  refine ⟨keepsUncounted_respell, ?_⟩
  obtain ⟨-, -, -, hall, -⟩ :=
    editOutsideCode_eq_rejoined "x \x60x\x60 xx \x60x\x60 x".toList
  rw [(hall Nat respell keepsUncounted_respell 2).1]
  decide +kernel

end ComponentMarkdown
