/-
A splice, match by match. The matches of a text stand in order, none before
the end of the one in front of it (`InOrder`); those of a scanner are the
leftmost ones (`leftmost_iff`). An edit is asked at each, in order. What
comes of it is the text with the counted replacements in the places of their
matches and all else as it was (`woven`), and the count is the sum of what
was counted (`IsSplice`).

A splice takes a text apart and puts it together piece by piece. It says
nothing of places; that it comes to the same is shown along the text, with
what lies in front of the pieces and what comes behind them (`woven_pieces`,
`isSplice_spliceFrom`).
-/
import ComponentMarkdown.Proofs.Splice.Hits
import Mathlib.Algebra.GroupWithZero.Nat

namespace ComponentMarkdown

variable {α σ : Type}

-- =============================================================== slices

/-- What stands between two places of a text. -/
def stretch (s : Text) (a b : Nat) : Text := (s.drop a).take (b - a)

theorem stretch_self (s : Text) (a : Nat) : stretch s a a = [] := by
  unfold stretch
  rw [Nat.sub_self, List.take_zero]

/-- A stretch and what stands behind it. -/
theorem stretch_drop (s : Text) {a b : Nat} (h : a ≤ b) :
    stretch s a b ++ s.drop b = s.drop a := by
  have hdrop : s.drop b = (s.drop a).drop (b - a) := by
    rw [List.drop_drop, Nat.add_sub_cancel' h]
  rw [hdrop]
  exact List.take_append_drop _ _

/-- Two stretches that meet are one. -/
theorem stretch_append (s : Text) {a b c : Nat} (hab : a ≤ b) (hbc : b ≤ c) :
    stretch s a b ++ stretch s b c = stretch s a c := by
  have hdrop : s.drop b = (s.drop a).drop (b - a) := by
    rw [List.drop_drop, Nat.add_sub_cancel' hab]
  have hsize : c - a = (b - a) + (c - b) := by omega
  unfold stretch
  rw [hdrop, hsize, List.take_add]

/-- The stretch of a text in its middle. -/
theorem stretch_middle (before t after : Text) :
    stretch (before ++ (t ++ after)) before.length (before.length + t.length)
      = t := by
  unfold stretch
  rw [List.drop_left, Nat.add_sub_cancel_left, List.take_left]

-- ============================================================== matches

/-- A hit and the place where it starts. -/
structure Match (α : Type) where
  start : Nat
  hit : Hit α

/-- The place behind a match. -/
def Match.stop (m : Match α) : Nat := m.start + m.hit.taken.length

/-- Whether matches stand in a text from a place on, none before the end of
the one in front of it. A match may be empty. -/
def InOrder (s : Text) : Nat → List (Match α) → Prop
  | _, [] => True
  | place, m :: ms =>
    place ≤ m.start ∧ m.hit.taken <+: s.drop m.start ∧ InOrder s m.stop ms

/-- The matches of a pattern in a text. -/
structure Matching (α : Type) (s : Text) where
  list : List (Match α)
  inOrder : InOrder s 0 list

theorem Match.start_le_stop (m : Match α) : m.start ≤ m.stop :=
  Nat.le_add_right _ _

/-- Matches behind a place are behind any before it. -/
theorem InOrder.of_le {s : Text} {place place' : Nat} {ms : List (Match α)}
    (hplace : place ≤ place') (h : InOrder s place' ms) :
    InOrder s place ms := by
  cases ms with
  | nil => trivial
  | cons m ms => exact ⟨Nat.le_trans hplace h.1, h.2⟩

/-- Matches in order all stand behind where they start from. -/
theorem InOrder.le_start {s : Text} {place : Nat} {ms : List (Match α)}
    (h : InOrder s place ms) {m : Match α} (hm : m ∈ ms) :
    place ≤ m.start := by
  induction ms generalizing place with
  | nil => cases hm
  | cons first ms ih =>
    obtain ⟨hplace, -, hrest⟩ := h
    rcases List.mem_cons.1 hm with rfl | hm
    · exact hplace
    · exact ih (hrest.of_le (Nat.le_trans hplace first.start_le_stop)) hm

theorem stretch_match {s : Text} {m : Match α}
    (h : m.hit.taken <+: s.drop m.start) :
    stretch s m.start m.stop = m.hit.taken := by
  unfold stretch Match.stop
  rw [Nat.add_sub_cancel_left]
  exact (List.prefix_iff_eq_take.1 h).symm

-- ============================================================== answers

/-- What an edit answers at one match after the other: nothing, or a text to
put there and what is counted for it. -/
def answers (edit : Match α → σ → Option Edited × σ) :
    List (Match α) → σ → List (Match α × Option Edited)
  | [], _ => []
  | m :: ms, st => (m, (edit m st).1) :: answers edit ms (edit m st).2

/-- What is counted for an answer. -/
def counted? (answer : Option Edited) : Nat := (answer.map Edited.count).getD 0

/-- What stands for a match that was answered: the new text if anything is
counted for it, and otherwise the match. -/
def placed (m : Match α) : Option Edited → Text
  | none => m.hit.taken
  | some new => if new.count = 0 then m.hit.taken else new.text

/-- A text from a place on, with its matches answered. -/
def woven (s : Text) : Nat → List (Match α × Option Edited) → Text
  | place, [] => s.drop place
  | place, (m, answer) :: rest =>
    stretch s place m.start ++ placed m answer ++ woven s m.stop rest

/-- What comes of a text whose matches are answered. -/
structure IsSplice (s : Text) (answered : List (Match α × Option Edited))
    (result : Edited) : Prop where
  text : result.text = woven s 0 answered
  count : result.count = (answered.map fun a => counted? a.2).sum
  /-- If nothing is counted, the text itself is returned. -/
  unchanged : result.count = 0 → result = .unchanged s

/-- Answers that count nothing leave a text as it was. -/
theorem woven_of_zero {s : Text} {edit : Match α → σ → Option Edited × σ}
    {ms : List (Match α)} {place : Nat} {st : σ} (hms : InOrder s place ms)
    (h : ((answers edit ms st).map fun a => counted? a.2).sum = 0) :
    woven s place (answers edit ms st) = s.drop place := by
  induction ms generalizing place st with
  | nil => rfl
  | cons m ms ih =>
    obtain ⟨hplace, htaken, hrest⟩ := hms
    unfold answers at h ⊢
    rw [List.map_cons, List.sum_cons, Nat.add_eq_zero_iff] at h
    have hplaced : placed m (edit m st).1 = m.hit.taken := by
      cases hanswer : (edit m st).1 with
      | none => rfl
      | some new =>
        rw [hanswer] at h
        exact if_pos h.1
    unfold woven
    rw [hplaced, ih hrest h.2, ← stretch_match htaken, List.append_assoc,
      stretch_drop s m.start_le_stop, stretch_drop s hplace]

/-- Edits whose answers come to the same. -/
def AnswersAlike (edit edit' : Match α → σ → Option Edited × σ) : Prop :=
  ∀ m st, placed m (edit m st).1 = placed m (edit' m st).1
    ∧ counted? (edit m st).1 = counted? (edit' m st).1
    ∧ (edit m st).2 = (edit' m st).2

/-- Alike answers weave the same text. -/
theorem AnswersAlike.woven_eq {edit edit' : Match α → σ → Option Edited × σ}
    (h : AnswersAlike edit edit') (s : Text) (ms : List (Match α))
    (place : Nat) (st : σ) (later : List (Match α × Option Edited)) :
    woven s place (answers edit ms st ++ later)
        = woven s place (answers edit' ms st ++ later)
      ∧ ((answers edit ms st).map fun a => counted? a.2).sum
        = ((answers edit' ms st).map fun a => counted? a.2).sum := by
  induction ms generalizing place st with
  | nil => exact ⟨rfl, rfl⟩
  | cons m ms ih =>
    obtain ⟨hplaced, hcount, hstate⟩ := h m st
    obtain ⟨hwoven, hsum⟩ := ih m.stop (edit' m st).2
    rw [answers, answers, List.cons_append, List.cons_append, woven, woven,
      List.map_cons, List.map_cons, List.sum_cons, List.sum_cons, hstate,
      hplaced, hcount, hwoven, hsum]
    exact ⟨rfl, rfl⟩

/-- Without a state, every match is answered by itself. -/
theorem answers_unit (edit : Match α → Unit → Option Edited × Unit)
    (ms : List (Match α)) :
    answers edit ms () = ms.map fun m => (m, (edit m ()).1) := by
  induction ms with
  | nil => rfl
  | cons m ms ih =>
    rw [answers, List.map_cons, ← ih]

/-- A replacement as an answer. -/
def countingOne (new? : Match α → σ → Option Text × σ) (m : Match α)
    (st : σ) : Option Edited × σ :=
  ((new? m st).1.map (⟨·, 1⟩), (new? m st).2)

/-- Every replaced match counts one. -/
theorem sum_countingOne (new? : Match α → σ → Option Text × σ)
    (ms : List (Match α)) (st : σ) :
    ((answers (countingOne new?) ms st).map fun a => counted? a.2).sum
      = (answers (countingOne new?) ms st).countP fun a => a.2.isSome := by
  induction ms generalizing st with
  | nil => rfl
  | cons m ms ih =>
    unfold answers
    rw [List.map_cons, List.sum_cons, ih, List.countP_cons, Nat.add_comm]
    unfold countingOne
    cases (new? m st).1 <;> rfl

theorem isSplice_of_eq {s : Text} {edit : Match α → σ → Option Edited × σ}
    {ms : List (Match α)} {st : σ} {result : Edited} (hms : InOrder s 0 ms)
    (htext : result.text = woven s 0 (answers edit ms st))
    (hcount : result.count
      = ((answers edit ms st).map fun a => counted? a.2).sum) :
    IsSplice s (answers edit ms st) result where
  text := htext
  count := hcount
  unchanged h := by
    obtain ⟨text, count⟩ := result
    dsimp only at h htext hcount
    subst h
    rw [htext, woven_of_zero hms hcount.symm]
    rfl

/-- A match is answered as it is met. -/
theorem mem_of_mem_answers {edit : Match α → σ → Option Edited × σ}
    {ms : List (Match α)} {st : σ} {a : Match α × Option Edited}
    (h : a ∈ answers edit ms st) : a.1 ∈ ms := by
  induction ms generalizing st with
  | nil => cases h
  | cons m ms ih =>
    rcases List.mem_cons.1 h with rfl | h
    · exact List.mem_cons_self
    · exact List.mem_cons_of_mem m (ih h)

/-- In front of all matches a text stands as it is. -/
theorem woven_of_le {s : Text} {place place' : Nat} (hplace : place ≤ place')
    {answered : List (Match α × Option Edited)}
    (h : ∀ a ∈ answered, place' ≤ a.1.start) :
    woven s place answered
      = stretch s place place' ++ woven s place' answered := by
  cases answered with
  | nil => exact (stretch_drop s hplace).symm
  | cons a rest =>
    obtain ⟨m, answer⟩ := a
    have hstart := h _ List.mem_cons_self
    rw [woven, woven, ← stretch_append s hplace hstart, List.append_assoc,
      List.append_assoc, List.append_assoc]

-- ============================================= the matches of a scanner

namespace Scanner

variable (sc : Scanner α)

/-- The hits among some pieces, each with its place. -/
def matchesFrom : Nat → List (Piece α) → List (Match α)
  | _, [] => []
  | place, .char _ :: ps => matchesFrom (place + 1) ps
  | place, .hit h :: ps =>
    ⟨place, h⟩ :: matchesFrom (place + h.taken.length) ps

/-- Whether matches are the leftmost ones from a place on: each is what the
scanner takes where it stands, and nothing is taken anywhere between the end
of the one in front of it and its start, or behind the last. -/
def Leftmost (s : Text) : Nat → List (Match α) → Prop
  | place, [] => ∀ r, place ≤ r → sc.scan (s.drop r) = none
  | place, m :: ms =>
    place ≤ m.start
      ∧ (∀ r, place ≤ r → r < m.start → sc.scan (s.drop r) = none)
      ∧ sc.scan (s.drop m.start) = some m.hit ∧ Leftmost s m.stop ms

theorem taken_append_drop {s : Text} {h : Hit α} (hs : sc.scan s = some h) :
    h.taken ++ s.drop h.taken.length = s :=
  List.prefix_iff_eq_append.1 (sc.taken_isPrefix hs)

variable {sc} {s : Text} {place : Nat} {ms : List (Match α)}

theorem scan_nil : sc.scan [] = none := by
  cases hs : sc.scan [] with
  | none => rfl
  | some h =>
    have hpos := sc.taken_length_pos hs
    have hle := sc.taken_length_le hs
    exact absurd hpos (Nat.not_lt.2 hle)

/-- If nothing is taken at a place, the leftmost matches are those from the
next place on. -/
theorem Leftmost.of_next (hnone : sc.scan (s.drop place) = none)
    (h : sc.Leftmost s (place + 1) ms) : sc.Leftmost s place ms := by
  have hcases {r : Nat} (hr : place ≤ r) : r = place ∨ place + 1 ≤ r := by
    omega
  cases ms with
  | nil =>
    intro r hr
    rcases hcases hr with rfl | hr
    · exact hnone
    · exact h r hr
  | cons m ms =>
    obtain ⟨hplace, hbetween, hscan, hrest⟩ := h
    refine ⟨Nat.le_of_succ_le hplace, fun r hr hstart => ?_, hscan, hrest⟩
    rcases hcases hr with rfl | hr
    · exact hnone
    · exact hbetween r hr hstart

theorem leftmost_matchesFrom (front rest : Text) :
    sc.Leftmost (front ++ rest) front.length
      (matchesFrom front.length (sc.pieces rest)) := by
  induction rest using sc.induction_on generalizing front with
  | nil =>
    rw [sc.pieces_nil]
    intro r hr
    rw [List.append_nil, List.drop_eq_nil_of_le hr]
    exact scan_nil
  | hit rest h hs ih =>
    rw [sc.pieces_of_hit hs]
    refine ⟨Nat.le_refl _, fun r hr hlt => absurd hlt (Nat.not_lt.2 hr),
      ?_, ?_⟩
    · show sc.scan ((front ++ rest).drop front.length) = some h
      rw [List.drop_left]
      exact hs
    · have hrest := ih (front ++ h.taken)
      rw [List.append_assoc, sc.taken_append_drop hs, List.length_append]
        at hrest
      exact hrest
  | char c rest hs ih =>
    rw [sc.pieces_of_none hs]
    have hrest := ih (front ++ [c])
    rw [List.append_assoc, List.length_append] at hrest
    refine Leftmost.of_next ?_ hrest
    rw [List.drop_left]
    exact hs

/-- There is but one way to choose the leftmost matches. -/
theorem Leftmost.unique {ms' : List (Match α)} (h : sc.Leftmost s place ms)
    (h' : sc.Leftmost s place ms') : ms = ms' := by
  induction ms generalizing place ms' with
  | nil =>
    cases ms' with
    | nil => rfl
    | cons m' ms' =>
      obtain ⟨hplace', -, hscan', -⟩ := h'
      rw [h _ hplace'] at hscan'
      cases hscan'
  | cons m ms ih =>
    obtain ⟨hplace, hbetween, hscan, hrest⟩ := h
    cases ms' with
    | nil =>
      rw [h' _ hplace] at hscan
      cases hscan
    | cons m' ms' =>
      obtain ⟨hplace', hbetween', hscan', hrest'⟩ := h'
      obtain ⟨start, hit⟩ := m
      obtain ⟨start', hit'⟩ := m'
      dsimp only at hplace hplace' hbetween hbetween' hscan hscan'
      rcases Nat.lt_trichotomy start start' with hlt | rfl | hlt
      · rw [hbetween' _ hplace hlt] at hscan
        cases hscan
      · rw [hscan] at hscan'
        cases hscan'
        rw [ih hrest hrest']
      · rw [hbetween _ hplace' hlt] at hscan'
        cases hscan'

/-- The leftmost matches are in order. -/
theorem Leftmost.inOrder (h : sc.Leftmost s place ms) :
    InOrder s place ms := by
  induction ms generalizing place with
  | nil => trivial
  | cons m ms ih =>
    obtain ⟨hplace, -, hscan, hrest⟩ := h
    exact ⟨hplace, sc.taken_isPrefix hscan, ih hrest⟩

variable (sc)

/-- The matches of a scanner in a text. -/
def matching (s : Text) : Matching α s where
  list := matchesFrom 0 (sc.pieces s)
  inOrder := (leftmost_matchesFrom [] s).inOrder

/-- The matches of a scanner are the leftmost ones. -/
theorem leftmost_iff : sc.Leftmost s 0 ms ↔ ms = (sc.matching s).list := by
  have hmatching : sc.Leftmost s 0 (sc.matching s).list :=
    leftmost_matchesFrom [] s
  exact ⟨fun h => h.unique hmatching, fun h => h ▸ hmatching⟩

-- =============================================== piece by piece

/-- An edit of hits, asked at their matches. -/
def atMatch (edit : Hit α → σ → Edited × σ) (m : Match α) (st : σ) :
    Option Edited × σ :=
  (some (edit m.hit st).1, (edit m.hit st).2)

/-- No match starts before the place it is looked for from. -/
theorem le_start_of_mem_matchesFrom {m : Match α} {ps : List (Piece α)}
    (h : m ∈ matchesFrom place ps) : place ≤ m.start := by
  induction ps generalizing place with
  | nil => cases h
  | cons p ps ih =>
    cases p with
    | char c => exact Nat.le_of_succ_le (ih h)
    | hit g =>
      rcases List.mem_cons.1 h with rfl | h
      · exact Nat.le_refl place
      · exact Nat.le_trans (Nat.le_add_right _ _) (ih h)

/-- The matches of a part of a longer text stand in it in order, and later
matches behind them. -/
theorem inOrder_pieces (front mid more : Text) (later : List (Match α))
    (hlater : InOrder (front ++ (mid ++ more)) (front.length + mid.length)
      later) :
    InOrder (front ++ (mid ++ more)) front.length
      (matchesFrom front.length (sc.pieces mid) ++ later) := by
  induction mid using sc.induction_on generalizing front with
  | nil =>
    rw [sc.pieces_nil]
    exact hlater
  | hit mid h hs ih =>
    obtain ⟨rest, rfl⟩ := sc.taken_isPrefix hs
    rw [List.drop_left] at ih
    rw [List.length_append, ← Nat.add_assoc] at hlater
    have hrest := ih (front ++ h.taken)
    rw [List.length_append, List.append_assoc, ← List.append_assoc h.taken]
      at hrest
    rw [sc.pieces_of_hit hs, List.drop_left]
    refine ⟨Nat.le_refl _, ?_, hrest hlater⟩
    show h.taken <+: (front ++ (h.taken ++ rest ++ more)).drop front.length
    rw [List.drop_left, List.append_assoc]
    exact List.prefix_append _ _
  | char c rest hs ih =>
    rw [List.length_cons, Nat.add_comm rest.length, ← Nat.add_assoc] at hlater
    have hrest := ih (front ++ [c])
    rw [List.length_append, List.append_assoc] at hrest
    rw [sc.pieces_of_none hs]
    exact (hrest hlater).of_le (Nat.le_succ _)

/-- The text of a splice stands for its part of a longer text, and what
later matches come to stands behind it. -/
theorem woven_pieces (edit : Hit α → σ → Edited × σ) (front mid more : Text)
    (later : List (Match α × Option Edited))
    (hlater : ∀ a ∈ later, front.length + mid.length ≤ a.1.start) (st : σ) :
    woven (front ++ (mid ++ more)) front.length
        (answers (atMatch edit) (matchesFrom front.length (sc.pieces mid)) st
          ++ later)
      = (splicePieces edit (sc.pieces mid) st).1.text
        ++ woven (front ++ (mid ++ more)) (front.length + mid.length)
          later := by
  induction mid using sc.induction_on generalizing front st with
  | nil =>
    rw [sc.pieces_nil]
    rfl
  | hit mid h hs ih =>
    obtain ⟨rest, rfl⟩ := sc.taken_isPrefix hs
    rw [List.drop_left] at ih
    rw [List.length_append, ← Nat.add_assoc] at hlater ⊢
    have hrest := ih (front ++ h.taken) (by rwa [List.length_append])
      (edit h st).2
    rw [List.length_append, List.append_assoc, ← List.append_assoc h.taken]
      at hrest
    have hanswer : atMatch edit ⟨front.length, h⟩ st
        = (some (edit h st).1, (edit h st).2) := rfl
    rw [sc.pieces_of_hit hs, List.drop_left, splicePieces_hit, matchesFrom,
      answers, hanswer, List.cons_append, woven, stretch_self,
      List.nil_append, Match.stop, hrest]
    by_cases hzero : (edit h st).1.count = 0
    · simp [hzero, placed]
    · simp [hzero, placed]
  | char c rest hs ih =>
    rw [List.length_cons, Nat.add_comm rest.length, ← Nat.add_assoc]
      at hlater ⊢
    have hlength : (front ++ [c]).length = front.length + 1 :=
      List.length_append
    have hrest := ih (front ++ [c]) (by rwa [hlength]) st
    rw [hlength, List.append_assoc] at hrest
    have hbehind : ∀ a ∈ answers (atMatch edit)
        (matchesFrom (front.length + 1) (sc.pieces rest)) st ++ later,
        front.length + 1 ≤ a.1.start := by
      intro a ha
      rcases List.mem_append.1 ha with ha | ha
      · exact le_start_of_mem_matchesFrom (mem_of_mem_answers ha)
      · have hle := hlater a ha
        omega
    have hone : stretch (front ++ (c :: rest ++ more)) front.length
        (front.length + 1) = [c] := stretch_middle front [c] (rest ++ more)
    rw [sc.pieces_of_none hs, matchesFrom,
      woven_of_le (Nat.le_succ _) hbehind, hone]
    exact congrArg (c :: ·) hrest

/-- What is counted is the sum of what is counted at the matches. -/
theorem count_splicePieces (edit : Hit α → σ → Edited × σ)
    (ps : List (Piece α)) (place : Nat) (st : σ) :
    (splicePieces edit ps st).1.count
      = ((answers (atMatch edit) (matchesFrom place ps) st).map
          fun a => counted? a.2).sum := by
  induction ps generalizing place st with
  | nil => rfl
  | cons p ps ih =>
    cases p with
    | char c => exact ih (place + 1) st
    | hit h =>
      have hanswer : atMatch edit ⟨place, h⟩ st
          = (some (edit h st).1, (edit h st).2) := rfl
      rw [splicePieces_hit, matchesFrom, answers, hanswer, List.map_cons,
        List.sum_cons, ← ih]
      by_cases hzero : (edit h st).1.count = 0
      · simp [hzero, counted?]
      · simp [hzero, counted?]

/-- A splice is the text with the answers at its matches in place of them. -/
theorem isSplice_spliceFrom (edit : Hit α → σ → Edited × σ) (st : σ)
    (s : Text) :
    IsSplice s (answers (atMatch edit) (sc.matching s).list st)
      (sc.spliceFrom edit st s).1 := by
  have htext := sc.woven_pieces edit [] s [] [] (List.forall_mem_nil _) st
  simp only [List.nil_append, List.append_nil, List.length_nil, Nat.zero_add,
    woven, List.drop_length] at htext
  exact isSplice_of_eq (sc.matching s).inOrder htext.symm
    (count_splicePieces edit _ 0 st)

/-- A replacement of hits, asked at their matches. -/
def newAtMatch (new? : Hit α → σ → Option Text × σ) (m : Match α) (st : σ) :
    Option Text × σ :=
  new? m.hit st

/-- A substitution answers as a replacement that counts one does. -/
theorem answersAlike_substitution (new? : Hit α → σ → Option Text × σ) :
    AnswersAlike (atMatch fun h st => (substitution h (new? h st).1,
      (new? h st).2)) (countingOne (newAtMatch new?)) := by
  intro m st
  dsimp only [atMatch, countingOne, newAtMatch]
  cases (new? m.hit st).1 with
  | none => exact ⟨rfl, rfl, rfl⟩
  | some t => exact ⟨rfl, rfl, rfl⟩

/-- So is one of substitutions, which count one each. -/
theorem isSplice_substitution (new? : Hit α → σ → Option Text × σ) (st : σ)
    (s : Text) :
    IsSplice s (answers (countingOne (newAtMatch new?)) (sc.matching s).list st)
      (sc.spliceFrom (fun h st => (substitution h (new? h st).1,
        (new? h st).2)) st s).1 := by
  have h := sc.isSplice_spliceFrom (fun h st => (substitution h (new? h st).1,
    (new? h st).2)) st s
  obtain ⟨hwoven, hsum⟩ := (answersAlike_substitution new?).woven_eq s
    (sc.matching s).list 0 st []
  rw [List.append_nil, List.append_nil] at hwoven
  exact isSplice_of_eq (sc.matching s).inOrder (h.text.trans hwoven)
    (h.count.trans hsum)

end Scanner

end ComponentMarkdown
