/-
Editing outside code spans. A text without code spans is one gap
(`ofText_of_tail`), so it makes no difference that it is edited as it is:
what is counted is what is counted in the gaps (`count_editOutsideCode`),
and the state is handed on from gap to gap (`editOutsideCode_snd`).

If the edits are splices, nothing is counted exactly if the hits of all
gaps, one gap after the other, leave the edit quiet
(`count_editOutsideCode_eq_zero_iff`).
-/
import ComponentMarkdown.Markup.CodeSpan
import ComponentMarkdown.Proofs.Splice.Hits

namespace ComponentMarkdown.Markup

open Scanner

namespace CodeSplit

/-- What stands between the code spans of a text, and around them. -/
def gaps (s : CodeSplit) : List Text := s.head :: s.tail.map Prod.snd

/-- The code spans of a text. -/
def spans (s : CodeSplit) : List Text := s.tail.map Prod.fst

/-- In front of any other character a run of backticks ends. -/
theorem closing?_of_ne {c : Char} (hc : c ≠ '\x60') (n k : Nat)
    (s : Text) :
    closing? n k (c :: s)
      = if k = n then some [] else (closing? n 0 s).map (c :: ·) := by
  rw [closing?, if_neg hc]

theorem ofText_of_ne {c : Char} (hc : c ≠ '\x60') (s : Text) :
    ofText (c :: s) = prepend [c] (ofText s) := by
  rw [ofText, if_neg hc]

/-- A text without backticks is one gap. -/
theorem ofText_of_not_mem {s : Text} (h : '\x60' ∉ s) :
    ofText s = ⟨s, []⟩ := by
  induction s with
  | nil => rw [ofText]
  | cons c s ih =>
    rw [List.mem_cons, not_or] at h
    rw [ofText_of_ne (Ne.symm h.1), ih h.2]
    rfl

/-- A text without code spans is one gap. -/
theorem ofText_of_tail {s : Text} (h : (ofText s).tail = []) :
    ofText s = ⟨s, []⟩ := by
  have hjoin := join_ofText s
  unfold join at hjoin
  rw [h, List.flatMap_nil, List.append_nil] at hjoin
  rw [← h]
  exact congrArg (CodeSplit.mk · _) hjoin

end CodeSplit

-- ======================================================= editing gaps

/-- Whether an edit gives a text back in which it counts nothing. -/
def KeepsUncounted {σ : Type} (edit : Text → σ → Edited × σ) : Prop :=
  ∀ gap st, (edit gap st).1.count = 0 → (edit gap st).1.text = gap

section

variable {σ : Type} {edit : Text → σ → Edited × σ}

/-- One gap is edited as it is. -/
theorem CodeSplit.editGaps_gap (s : Text) (st : σ) :
    CodeSplit.editGaps edit ⟨s, []⟩ st = edit s st := by
  refine Prod.ext ?_ rfl
  show (⟨(edit s st).1.text ++ [], (edit s st).1.count + 0⟩ : Edited) = _
  rw [List.append_nil, Nat.add_zero]

/-- Without code spans, the edit is that of the only gap. -/
theorem editOutsideCode_of_tail {s : Text}
    (h : (CodeSplit.ofText s).tail = []) (st : σ) :
    editOutsideCode edit st s = (CodeSplit.ofText s).editGaps edit st := by
  rw [CodeSplit.ofText_of_tail h, CodeSplit.editGaps_gap]
  unfold editOutsideCode
  dsimp only
  rw [h]
  rfl

/-- With code spans, it is that of the gaps, unless nothing is counted. -/
theorem editOutsideCode_of_spans {s : Text}
    (h : (CodeSplit.ofText s).tail ≠ []) (st : σ) :
    editOutsideCode edit st s
      = (if ((CodeSplit.ofText s).editGaps edit st).1.count = 0
          then .unchanged s else ((CodeSplit.ofText s).editGaps edit st).1,
        ((CodeSplit.ofText s).editGaps edit st).2) := by
  unfold editOutsideCode
  dsimp only
  rw [List.isEmpty_eq_false_iff.2 h]
  rfl

/-- What is counted is what is counted in the gaps. -/
theorem count_editOutsideCode (st : σ) (s : Text) :
    (editOutsideCode edit st s).1.count
      = ((CodeSplit.ofText s).editGaps edit st).1.count := by
  by_cases h : (CodeSplit.ofText s).tail = []
  · rw [editOutsideCode_of_tail h]
  · rw [editOutsideCode_of_spans h]
    dsimp only
    split
    · rename_i hzero
      exact hzero.symm
    · rfl

/-- The state is handed on from gap to gap. -/
theorem editOutsideCode_snd (st : σ) (s : Text) :
    (editOutsideCode edit st s).2
      = ((CodeSplit.ofText s).editGaps edit st).2 := by
  by_cases h : (CodeSplit.ofText s).tail = []
  · rw [editOutsideCode_of_tail h]
  · rw [editOutsideCode_of_spans h]

end

-- ====================================================== splicing gaps

variable {α σ : Type} (sc : Scanner α) (edit : Hit α → σ → Edited × σ)

/-- The edit of a gap and of all gaps behind it. -/
theorem count_editTail_eq_zero_iff (tail : List (Text × Text)) (st : σ) :
    (CodeSplit.editTail (fun gap st => sc.spliceFrom edit st gap)
        tail st).1.count = 0
      ↔ Quiet edit ((tail.map Prod.snd).flatMap sc.hits) st := by
  induction tail generalizing st with
  | nil => exact iff_of_true rfl trivial
  | cons p tail ih =>
    obtain ⟨span, gap⟩ := p
    rw [List.map_cons, List.flatMap_cons, quiet_append,
      ← count_spliceFrom_eq_zero_iff, ← spliceFrom_snd, ← ih]
    exact Nat.add_eq_zero_iff

/-- A splice outside code spans counts nothing if the edit is quiet at the
hits of all gaps, in order. -/
theorem count_editOutsideCode_eq_zero_iff (st : σ) (s : Text) :
    (editOutsideCode (fun gap st => sc.spliceFrom edit st gap)
        st s).1.count = 0
      ↔ Quiet edit ((CodeSplit.ofText s).gaps.flatMap sc.hits) st := by
  rw [count_editOutsideCode]
  unfold CodeSplit.gaps
  rw [List.flatMap_cons, quiet_append, ← count_spliceFrom_eq_zero_iff,
    ← spliceFrom_snd, ← count_editTail_eq_zero_iff]
  exact Nat.add_eq_zero_iff

end ComponentMarkdown.Markup
