/-
A splice outside code spans, match by match. Its matches are those of the
gaps, each with its place in the whole text (`Scanner.matchesOutside`), and
none reaches into a code span (`outsideCode_of_mem_matchesOutside`). What
comes of the text is the text with the counted replacements in the places of
their matches, the code spans and all else as they were
(`isSplice_outsideCode`).

As for a splice of a whole text, this is shown along the text, with what
lies in front of a gap and what comes behind it (`woven_editGaps`); so it
holds of a text that is a part of a longer one (`woven_outsideCode`).
-/
import ComponentMarkdown.Proofs.Markup.OutsideCode
import ComponentMarkdown.Proofs.Splice.Matches

namespace ComponentMarkdown

open Markup BacktickRun Text

variable {α σ : Type}

-- =========================================================== placed gaps

namespace Markup.CodeSplit

/-- Gaps with the spans between them, in a text that starts at a place: each
gap with the place where it starts. -/
def gapsFrom (place : Nat) (head : Text) :
    List (Text × Text) → List (Nat × Text)
  | [] => [(place, head)]
  | (span, gap) :: more =>
    (place, head) :: gapsFrom (place + head.length + span.length) gap more

/-- The first gap stands in front of the others. -/
theorem le_of_mem_gapsFrom {place : Nat} {head : Text}
    {tail : List (Text × Text)} {g : Nat × Text}
    (h : g ∈ gapsFrom place head tail) : place ≤ g.1 := by
  induction tail generalizing place head with
  | nil =>
    have hplace := congrArg Prod.fst (List.mem_singleton.1 h)
    exact Nat.le_of_eq hplace.symm
  | cons p tail ih =>
    rcases List.mem_cons.1 h with rfl | h
    · exact Nat.le_refl place
    · have hle := ih h
      omega

/-- Gaps and spans, the first of each in front. -/
theorem join_cons (head span gap : Text) (tail : List (Text × Text)) :
    join ⟨head, (span, gap) :: tail⟩
      = head ++ (span ++ join ⟨gap, tail⟩) := by
  unfold join
  rw [List.flatMap_cons, List.append_assoc span]

end Markup.CodeSplit

/-- Whether a match in a text that starts at a place lies in that text and
reaches into none of its code spans. -/
def Match.OutsideCode (place : Nat) (s : Text) (m : Match α) : Prop :=
  place ≤ m.start ∧ m.stop ≤ place + s.length
    ∧ ∀ r ∈ codeSpans (BacktickRun.ofText s),
      byteLength (s.take (m.stop - place)) ≤ r.start
        ∨ r.stop ≤ byteLength (s.take (m.start - place))

namespace Scanner

variable (sc : Scanner α)

/-- The matches in some gaps, each with its place. -/
def matchesIn (gaps : List (Nat × Text)) : List (Match α) :=
  gaps.flatMap fun g => matchesFrom g.1 (sc.pieces g.2)

/-- The matches of a scanner outside the code spans of a text that starts at
a place. -/
def matchesOutside (place : Nat) (s : Text) : List (Match α) :=
  sc.matchesIn (CodeSplit.gapsFrom place (CodeSplit.ofText s).head
    (CodeSplit.ofText s).tail)

theorem matchesIn_cons (place : Nat) (gap : Text)
    (gaps : List (Nat × Text)) :
    sc.matchesIn ((place, gap) :: gaps)
      = matchesFrom place (sc.pieces gap) ++ sc.matchesIn gaps := rfl

/-- The matches of gaps stand behind where the first gap starts. -/
theorem le_start_of_mem_matchesIn {place : Nat} {head : Text}
    {tail : List (Text × Text)} {m : Match α}
    (h : m ∈ sc.matchesIn (CodeSplit.gapsFrom place head tail)) :
    place ≤ m.start := by
  obtain ⟨g, hg, hm⟩ := List.mem_flatMap.1 h
  exact Nat.le_trans (CodeSplit.le_of_mem_gapsFrom hg)
    (le_start_of_mem_matchesFrom hm)

/-- The hits of the matches are those of the gaps. -/
theorem map_hit_matchesFrom (place : Nat) (ps : List (Piece α)) :
    (matchesFrom place ps).map Match.hit = ps.filterMap Piece.hit? := by
  induction ps generalizing place with
  | nil => rfl
  | cons p ps ih =>
    cases p with
    | char c => exact ih (place + 1)
    | hit h => exact congrArg (h :: ·) (ih (place + h.taken.length))

/-- The matches in the gaps are the hits of the gaps. -/
theorem map_hit_matchesIn (place : Nat) (head : Text)
    (tail : List (Text × Text)) :
    (sc.matchesIn (CodeSplit.gapsFrom place head tail)).map Match.hit
      = (CodeSplit.gaps ⟨head, tail⟩).flatMap sc.hits := by
  induction tail generalizing place head with
  | nil => simp [CodeSplit.gapsFrom, matchesIn, CodeSplit.gaps,
      map_hit_matchesFrom, hits]
  | cons p tail ih =>
    obtain ⟨span, gap⟩ := p
    rw [CodeSplit.gapsFrom, matchesIn_cons, List.map_append, ih,
      map_hit_matchesFrom, CodeSplit.gaps_cons, List.flatMap_cons]
    rfl

/-- Outside code spans, the matches are the hits of the gaps. -/
theorem map_hit_matchesOutside (place : Nat) (s : Text) :
    (sc.matchesOutside place s).map Match.hit
      = (CodeSplit.ofText s).gaps.flatMap sc.hits :=
  sc.map_hit_matchesIn place _ _

-- ============================================== apart from the code spans

/-- No match reaches beyond the text, -/
theorem stop_le_of_mem_matchesFrom {place : Nat} {s : Text} {m : Match α}
    (h : m ∈ matchesFrom place (sc.pieces s)) : m.stop ≤ place + s.length := by
  induction s using sc.induction_on generalizing place with
  | nil =>
    rw [sc.pieces_nil] at h
    cases h
  | hit s hit hs ih =>
    obtain ⟨rest, rfl⟩ := sc.taken_isPrefix hs
    rw [List.drop_left] at ih
    rw [sc.pieces_of_hit hs, List.drop_left] at h
    rw [List.length_append]
    rcases List.mem_cons.1 h with rfl | h
    · exact Nat.add_le_add_left (Nat.le_add_right _ _) place
    · have hle := ih h
      omega
  | char c rest hs ih =>
    rw [sc.pieces_of_none hs] at h
    have hle := ih h
    rw [List.length_cons]
    omega

/-- and none of a gap beyond the split. -/
theorem stop_le_of_mem_matchesIn {place : Nat} {head : Text}
    {tail : List (Text × Text)} {m : Match α}
    (h : m ∈ sc.matchesIn (CodeSplit.gapsFrom place head tail)) :
    m.stop ≤ place + (CodeSplit.join ⟨head, tail⟩).length := by
  induction tail generalizing place head with
  | nil =>
    rw [CodeSplit.gapsFrom, matchesIn_cons] at h
    have hjoin : CodeSplit.join ⟨head, []⟩ = head := List.append_nil head
    rw [hjoin]
    exact sc.stop_le_of_mem_matchesFrom (by simpa [matchesIn] using h)
  | cons p tail ih =>
    obtain ⟨span, gap⟩ := p
    rw [CodeSplit.gapsFrom, matchesIn_cons, List.mem_append] at h
    rw [CodeSplit.join_cons, List.length_append, List.length_append]
    rcases h with h | h
    · have hle := sc.stop_le_of_mem_matchesFrom h
      omega
    · have hle := ih h
      omega

/-- A beginning that is longer holds at least as many bytes. -/
theorem byteLength_take_mono (s : Text) {a b : Nat} (h : a ≤ b) :
    byteLength (s.take a) ≤ byteLength (s.take b) := by
  rw [← Nat.add_sub_cancel' h, List.take_add, byteLength_append]
  exact Nat.le_add_right _ _

/-- A match of a gap ends before a span or starts behind it. -/
theorem apart_of_mem_matchesIn {place : Nat} (before : Text) {head : Text}
    {tail : List (Text × Text)} {m : Match α} {r : ByteRange}
    (hm : m ∈ sc.matchesIn
      (CodeSplit.gapsFrom (place + before.length) head tail))
    (hr : r ∈ CodeSplit.rangesFrom (before ++ head).byteLength tail) :
    byteLength ((before ++ CodeSplit.join ⟨head, tail⟩).take
        (m.stop - place)) ≤ r.start
      ∨ r.stop ≤ byteLength ((before ++ CodeSplit.join ⟨head, tail⟩).take
        (m.start - place)) := by
  induction tail generalizing before head with
  | nil => cases hr
  | cons p tail ih =>
    obtain ⟨span, gap⟩ := p
    rw [CodeSplit.gapsFrom, matchesIn_cons, List.mem_append] at hm
    rw [CodeSplit.join_cons]
    rcases hm with hm | hm
    · have hstop := sc.stop_le_of_mem_matchesFrom hm
      refine .inl (Nat.le_trans (byteLength_take_mono _
        (b := (before ++ head).length) ?_) ?_)
      · rw [List.length_append]
        omega
      · rw [← List.append_assoc, List.take_left]
        exact CodeSplit.le_of_mem_rangesFrom hr
    · -- the gaps behind the span, with the span in front
      have hplace : place + before.length + head.length + span.length
          = place + (before ++ (head ++ span)).length := by
        simp only [List.length_append, ← Nat.add_assoc]
      rw [hplace] at hm
      have hsplit : before ++ (head ++ (span ++ CodeSplit.join ⟨gap, tail⟩))
          = before ++ (head ++ span) ++ CodeSplit.join ⟨gap, tail⟩ := by
        simp only [List.append_assoc]
      rw [hsplit]
      rcases List.mem_cons.1 hr with rfl | hr
      · refine .inr (Nat.le_trans ?_ (byteLength_take_mono _
          (a := (before ++ (head ++ span)).length) ?_))
        · rw [List.take_left]
          simp only [byteLength_append, Nat.add_assoc]
          exact Nat.le_refl _
        · have hstart := sc.le_start_of_mem_matchesIn hm
          omega
      · refine ih _ hm ?_
        simp only [byteLength_append, Nat.add_assoc] at hr ⊢
        exact hr

/-- The matches outside the code spans of a text lie in it and reach into
none of them. -/
theorem outsideCode_of_mem_matchesOutside {place : Nat} {s : Text}
    {m : Match α} (hm : m ∈ sc.matchesOutside place s) :
    m.OutsideCode place s := by
  have hjoin : CodeSplit.join
      ⟨(CodeSplit.ofText s).head, (CodeSplit.ofText s).tail⟩ = s :=
    CodeSplit.join_ofText s
  have hstop := sc.stop_le_of_mem_matchesIn hm
  rw [hjoin] at hstop
  refine ⟨sc.le_start_of_mem_matchesIn hm, hstop, fun r hr => ?_⟩
  unfold BacktickRun.ofText at hr
  rw [← CodeSplit.rangesAt_ofText, CodeSplit.rangesAt, Nat.zero_add] at hr
  have hapart := sc.apart_of_mem_matchesIn [] hm hr
  rw [List.nil_append, hjoin] at hapart
  exact hapart

-- =========================================================== in their order

/-- The matches of gaps in a longer text stand in it in order, and later
matches behind them. -/
theorem inOrder_gaps (front more head : Text) (tail : List (Text × Text))
    (later : List (Match α))
    (hlater : InOrder (front ++ (CodeSplit.join ⟨head, tail⟩ ++ more))
      (front.length + (CodeSplit.join ⟨head, tail⟩).length) later) :
    InOrder (front ++ (CodeSplit.join ⟨head, tail⟩ ++ more)) front.length
      (sc.matchesIn (CodeSplit.gapsFrom front.length head tail)
        ++ later) := by
  induction tail generalizing front head with
  | nil =>
    have hjoin : CodeSplit.join ⟨head, []⟩ = head := List.append_nil head
    rw [hjoin] at hlater ⊢
    rw [CodeSplit.gapsFrom, matchesIn_cons, List.append_assoc]
    exact sc.inOrder_pieces front head more later hlater
  | cons p tail ih =>
    obtain ⟨span, gap⟩ := p
    have hrest := ih (front ++ (head ++ span)) gap
    rw [CodeSplit.join_cons] at hlater ⊢
    rw [CodeSplit.gapsFrom, matchesIn_cons, List.append_assoc]
    simp only [List.append_assoc, List.length_append, ← Nat.add_assoc]
      at hrest hlater ⊢
    refine sc.inOrder_pieces front head
      (span ++ (CodeSplit.join ⟨gap, tail⟩ ++ more)) _ ?_
    exact (hrest hlater).of_le (Nat.le_add_right _ _)

/-- The matches outside the code spans of a part of a longer text stand in
it in order, and later matches behind them. -/
theorem inOrder_outsideCode (front mid more : Text) (later : List (Match α))
    (hlater : InOrder (front ++ (mid ++ more)) (front.length + mid.length)
      later) :
    InOrder (front ++ (mid ++ more)) front.length
      (sc.matchesOutside front.length mid ++ later) := by
  have h := sc.inOrder_gaps front more (CodeSplit.ofText mid).head
    (CodeSplit.ofText mid).tail later
  rw [show CodeSplit.join ⟨_, _⟩ = mid from CodeSplit.join_ofText mid] at h
  exact h hlater

/-- The matches outside the code spans of a text stand in it in order. -/
theorem inOrder_matchesOutside (s : Text) :
    InOrder s 0 (sc.matchesOutside 0 s) := by
  have h := sc.inOrder_outsideCode [] s [] [] trivial
  simp only [List.append_nil] at h
  exact h

-- ====================================================== gap by gap

variable (edit : Hit α → σ → Edited × σ)

/-- Later matches are answered in the state that earlier ones have left. -/
theorem answers_append (a b : List (Match α)) (st : σ) :
    answers (atMatch edit) (a ++ b) st
      = answers (atMatch edit) a st
        ++ answers (atMatch edit) b (stateAfter edit (a.map Match.hit) st) := by
  induction a generalizing st with
  | nil => rfl
  | cons m a ih =>
    rw [List.cons_append, answers, answers, ih]
    rfl

/-- The state behind the matches of a text is the one its splice leaves. -/
theorem stateAfter_matchesFrom (place : Nat) (s : Text) (st : σ) :
    stateAfter edit ((matchesFrom place (sc.pieces s)).map Match.hit) st
      = (sc.spliceFrom edit st s).2 := by
  rw [map_hit_matchesFrom, sc.spliceFrom_snd]
  rfl

/-- The edited gaps with their code spans stand for their part of a longer
text, and what later matches come to stands behind them. -/
theorem woven_editGaps (front more head : Text) (tail : List (Text × Text))
    (later : List (Match α × Option Edited))
    (hlater : ∀ a ∈ later,
      front.length + (CodeSplit.join ⟨head, tail⟩).length ≤ a.1.start)
    (st : σ) :
    woven (front ++ (CodeSplit.join ⟨head, tail⟩ ++ more)) front.length
        (answers (atMatch edit)
          (sc.matchesIn (CodeSplit.gapsFrom front.length head tail)) st
          ++ later)
      = (CodeSplit.editGaps (fun gap st => sc.spliceFrom edit st gap)
          ⟨head, tail⟩ st).1.text
        ++ woven (front ++ (CodeSplit.join ⟨head, tail⟩ ++ more))
          (front.length + (CodeSplit.join ⟨head, tail⟩).length) later := by
  induction tail generalizing front head st with
  | nil =>
    have hjoin : CodeSplit.join ⟨head, []⟩ = head := List.append_nil head
    rw [hjoin] at hlater ⊢
    rw [CodeSplit.editGaps_gap, CodeSplit.gapsFrom, matchesIn_cons]
    have hhead := sc.woven_pieces edit front head more later hlater st
    rw [← List.append_nil (matchesFrom _ _)] at hhead
    exact hhead
  | cons p tail ih =>
    obtain ⟨span, gap⟩ := p
    -- the text in front of the second gap
    have hfront : (front ++ (head ++ span)).length
        = front.length + head.length + span.length := by
      simp [Nat.add_assoc]
    rw [CodeSplit.join_cons] at hlater ⊢
    simp only [List.length_append] at hlater
    have hrest := ih (front ++ (head ++ span)) gap
      (fun a ha => by rw [hfront]; have := hlater a ha; omega)
      (sc.spliceFrom edit st head).2
    have hbehind : ∀ a ∈ answers (atMatch edit) (sc.matchesIn
        (CodeSplit.gapsFrom (front ++ (head ++ span)).length gap tail))
          (sc.spliceFrom edit st head).2 ++ later,
        front.length + head.length + span.length ≤ a.1.start := by
      intro a ha
      rcases List.mem_append.1 ha with ha | ha
      · rw [← hfront]
        exact sc.le_start_of_mem_matchesIn (mem_of_mem_answers ha)
      · have := hlater a ha
        omega
    have hhead := sc.woven_pieces edit front head
      (span ++ (CodeSplit.join ⟨gap, tail⟩ ++ more)) _
      (fun a ha => Nat.le_trans (Nat.le_add_right _ _) (hbehind a ha)) st
    have hspan : stretch
        (front ++ (head ++ (span ++ (CodeSplit.join ⟨gap, tail⟩ ++ more))))
        (front.length + head.length)
        (front.length + head.length + span.length) = span := by
      rw [← List.append_assoc front, ← List.length_append]
      exact stretch_middle _ span _
    rw [woven_of_le (Nat.le_add_right _ _) hbehind, hspan] at hhead
    rw [hfront] at hrest hhead
    rw [CodeSplit.gapsFrom, matchesIn_cons, answers_append,
      stateAfter_matchesFrom, CodeSplit.editGaps_cons]
    simp only [List.append_assoc, List.length_append, ← Nat.add_assoc]
      at hrest hhead ⊢
    rw [hhead, hrest]
    rfl

/-- What is counted is the sum of what is counted at the matches. -/
theorem count_editGaps (place : Nat) (head : Text)
    (tail : List (Text × Text)) (st : σ) :
    (CodeSplit.editGaps (fun gap st => sc.spliceFrom edit st gap)
        ⟨head, tail⟩ st).1.count
      = ((answers (atMatch edit)
          (sc.matchesIn (CodeSplit.gapsFrom place head tail)) st).map
            fun a => counted? a.2).sum := by
  induction tail generalizing place head st with
  | nil =>
    rw [CodeSplit.editGaps_gap, CodeSplit.gapsFrom, matchesIn_cons,
      answers_append, List.map_append, List.sum_append]
    exact count_splicePieces edit (sc.pieces head) place st
  | cons p tail ih =>
    obtain ⟨span, gap⟩ := p
    rw [CodeSplit.gapsFrom, matchesIn_cons, answers_append,
      stateAfter_matchesFrom, CodeSplit.editGaps_cons, List.map_append,
      List.sum_append, ← ih, ← count_splicePieces]
    rfl

-- ============================================================ the whole

/-- A splice of gaps gives a text back in which it counts nothing. -/
theorem keepsUncounted_spliceFrom :
    KeepsUncounted fun gap st => sc.spliceFrom edit st gap :=
  fun gap st => sc.spliceFrom_text_of_count_zero edit st gap

/-- The text of a splice outside code spans stands for its part of a longer
text, and what later matches come to stands behind it. -/
theorem woven_outsideCode (front mid more : Text)
    (later : List (Match α × Option Edited))
    (hlater : ∀ a ∈ later, front.length + mid.length ≤ a.1.start) (st : σ) :
    woven (front ++ (mid ++ more)) front.length
        (answers (atMatch edit) (sc.matchesOutside front.length mid) st
          ++ later)
      = (editOutsideCode (fun gap st => sc.spliceFrom edit st gap) st
          mid).1.text
        ++ woven (front ++ (mid ++ more)) (front.length + mid.length)
          later := by
  have h := sc.woven_editGaps edit front more (CodeSplit.ofText mid).head
    (CodeSplit.ofText mid).tail later
  rw [show CodeSplit.join ⟨_, _⟩ = mid from CodeSplit.join_ofText mid] at h
  rw [text_editOutsideCode (sc.keepsUncounted_spliceFrom edit)]
  exact h hlater st

/-- A splice outside code spans answers the matches outside them, one after
the other, and puts the counted answers in their places. -/
theorem isSplice_outsideCode (st : σ) (s : Text) :
    IsSplice s (answers (atMatch edit) (sc.matchesOutside 0 s) st)
      (editOutsideCode (fun gap st => sc.spliceFrom edit st gap) st s).1 := by
  have htext := sc.woven_outsideCode edit [] s [] [] (List.forall_mem_nil _) st
  simp only [List.nil_append, List.append_nil, List.length_nil, Nat.zero_add,
    woven, List.drop_length] at htext
  refine isSplice_of_eq (sc.inOrder_matchesOutside s) htext.symm ?_
  rw [count_editOutsideCode]
  exact sc.count_editGaps edit 0 _ _ st

end Scanner

end ComponentMarkdown
