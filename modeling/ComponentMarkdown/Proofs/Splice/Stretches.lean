/-
A stretch of a text that no replaced match reaches into. A splice leaves it
as it stands, behind what the replaced matches in front of it make of the
text in front of it (`text_splice_of_apart`). So its place in the result is
known also where replacements are longer or shorter than what they stand for.
-/
import ComponentMarkdown.Proofs.Splice.Matches

namespace ComponentMarkdown

variable {α σ : Type}

-- ===================================================== matches in order

/-- Fewer matches are still in order. -/
theorem InOrder.sublist {s : Text} {place : Nat} {ms ms' : List (Match α)}
    (hsublist : ms'.Sublist ms) (h : InOrder s place ms) :
    InOrder s place ms' := by
  induction hsublist generalizing place with
  | slnil => exact h
  | cons m _ ih =>
    obtain ⟨hplace, -, hrest⟩ := h
    exact (ih hrest).of_le (Nat.le_trans hplace m.start_le_stop)
  | cons_cons m _ ih => exact ⟨h.1, h.2.1, ih h.2.2⟩

/-- Matches in order stand on both sides of each of them. -/
theorem InOrder.of_append {s : Text} {place : Nat} {m : Match α}
    {front later : List (Match α)} (h : InOrder s place (front ++ m :: later)) :
    (∀ a ∈ front, a.stop ≤ m.start) ∧ InOrder s m.stop later := by
  induction front generalizing place with
  | nil => exact ⟨nofun, h.2.2⟩
  | cons a front ih =>
    obtain ⟨-, -, hrest⟩ := h
    exact ⟨List.forall_mem_cons.2 ⟨hrest.le_start List.mem_append_cons_self,
      (ih hrest).1⟩, (ih hrest).2⟩

/-- Matches that end in front of a stretch or start behind it: first those,
then these. -/
theorem exists_append_of_apart {s : Text} {place i j : Nat} (hij : i < j)
    {answered : List (Match α × Option Edited)}
    (hinOrder : InOrder s place (answered.map Prod.fst))
    (h : ∀ a ∈ answered, a.1.stop ≤ i ∨ j ≤ a.1.start) :
    ∃ later, answered
        = (answered.filter fun a => a.1.stop ≤ i) ++ later
      ∧ ∀ a ∈ later, j ≤ a.1.start := by
  induction answered generalizing place with
  | nil => exact ⟨[], rfl, nofun⟩
  | cons a answered ih =>
    obtain ⟨-, -, hrest⟩ := hinOrder
    obtain ⟨ha, h⟩ := List.forall_mem_cons.1 h
    rcases ha with hstop | hstart
    · obtain ⟨later, heq, hlater⟩ := ih hrest h
      refine ⟨later, ?_, hlater⟩
      rw [List.filter_cons_of_pos (by simpa using hstop), List.cons_append,
        ← heq]
    · have hbehind : ∀ b ∈ answered, j ≤ b.1.start := by
        intro b hb
        have hle := hrest.le_start (List.mem_map_of_mem hb)
        have := a.1.start_le_stop
        omega
      have hnone : (a :: answered).filter (fun a => a.1.stop ≤ i) = [] := by
        refine List.filter_eq_nil_iff.2 fun b hb => ?_
        have hle : j ≤ b.1.start := by
          rcases List.mem_cons.1 hb with rfl | hb
          · exact hstart
          · exact hbehind b hb
        have := b.1.start_le_stop
        simp only [decide_eq_true_eq]
        omega
      exact ⟨a :: answered, by rw [hnone, List.nil_append],
        List.forall_mem_cons.2 ⟨hstart, hbehind⟩⟩

-- ================================================= what stands in a place

/-- What is not counted stays as it was taken. -/
theorem placed_of_counted?_eq_zero {m : Match α} {answer : Option Edited}
    (h : counted? answer = 0) : placed m answer = m.hit.taken := by
  cases answer with
  | none => rfl
  | some new => exact if_pos h

/-- Only the answers that count something matter. -/
theorem woven_filter_counted {s : Text} {place : Nat}
    {answered : List (Match α × Option Edited)}
    (h : InOrder s place (answered.map Prod.fst)) :
    woven s place (answered.filter fun a => counted? a.2 ≠ 0)
      = woven s place answered := by
  induction answered generalizing place with
  | nil => rfl
  | cons a answered ih =>
    obtain ⟨m, answer⟩ := a
    obtain ⟨hplace, htaken, hrest⟩ := h
    by_cases hcount : counted? answer = 0
    · have hbehind : ∀ a ∈ answered.filter (fun a => counted? a.2 ≠ 0),
          m.stop ≤ a.1.start := fun a ha =>
        hrest.le_start (List.mem_map_of_mem (List.mem_filter.1 ha).1)
      rw [List.filter_cons_of_neg (by simpa using hcount), woven,
        placed_of_counted?_eq_zero hcount, ← stretch_match htaken,
        stretch_append s hplace m.start_le_stop, ← ih hrest]
      exact woven_of_le (Nat.le_trans hplace m.start_le_stop) hbehind
    · rw [List.filter_cons_of_pos (by simpa using hcount), woven, woven,
        ih hrest]

/-- A stretch of the front part of a text is one of the text. -/
theorem stretch_take (s : Text) {a b i : Nat} (hb : b ≤ i) :
    stretch (s.take i) a b = stretch s a b := by
  unfold stretch
  rw [List.drop_take, List.take_take, Nat.min_eq_left (by omega)]

/-- Between matches in front of a stretch and matches behind it, the stretch
stands as it is. -/
theorem woven_append_of_apart {s : Text} {place i j : Nat} (hi : place ≤ i)
    (hij : i ≤ j) {front later : List (Match α × Option Edited)}
    (hinOrder : InOrder s place (front.map Prod.fst))
    (hfront : ∀ a ∈ front, a.1.stop ≤ i)
    (hlater : ∀ a ∈ later, j ≤ a.1.start) :
    woven s place (front ++ later)
      = woven (s.take i) place front
        ++ (stretch s i j ++ woven s j later) := by
  induction front generalizing place with
  | nil =>
    have hrest : woven (s.take i) place ([] : List (Match α × Option Edited))
        = stretch s place i := List.drop_take
    rw [List.nil_append, hrest, woven_of_le (Nat.le_trans hi hij) hlater,
      ← stretch_append s hi hij, List.append_assoc]
  | cons a front ih =>
    obtain ⟨m, answer⟩ := a
    obtain ⟨hplace, -, hrest⟩ := hinOrder
    obtain ⟨hstop, hfront⟩ := List.forall_mem_cons.1 hfront
    rw [List.cons_append, woven, woven, ih hstop hrest hfront,
      stretch_take s (Nat.le_trans m.start_le_stop hstop), List.append_assoc,
      List.append_assoc, List.append_assoc]

-- ============================================================== a splice

namespace Scanner

variable (sc : Scanner α)

/-- A match is what the scanner takes at a place it comes to. -/
theorem mem_matchesFrom_iff {place : Nat} {s : Text} {m : Match α} :
    m ∈ matchesFrom place (sc.pieces s)
      ↔ ∃ r, sc.Visits s r ∧ sc.scan r = some m.hit
        ∧ m.start + r.length = place + s.length := by
  constructor
  · intro hm
    induction s using sc.induction_on generalizing place with
    | nil =>
      rw [sc.pieces_nil] at hm
      cases hm
    | hit s h hs ih =>
      rw [sc.pieces_of_hit hs] at hm
      rcases List.mem_cons.1 hm with rfl | hm
      · exact ⟨s, .here s, hs, rfl⟩
      · obtain ⟨r, hr, hscan, hplace⟩ := ih hm
        have hle := sc.taken_length_le hs
        rw [List.length_drop] at hplace
        exact ⟨r, .behind hs hr, hscan, by omega⟩
    | char c rest hs ih =>
      rw [sc.pieces_of_none hs] at hm
      obtain ⟨r, hr, hscan, hplace⟩ := ih hm
      refine ⟨r, .further hs hr, hscan, ?_⟩
      rw [List.length_cons]
      omega
  · rintro ⟨r, hr, hscan, hplace⟩
    induction hr generalizing place with
    | here s =>
      have hstart : place = m.start := by omega
      rw [sc.pieces_of_hit hscan, hstart]
      exact List.mem_cons_self
    | behind hs hr ih =>
      have hle := sc.taken_length_le hs
      rw [sc.pieces_of_hit hs]
      refine List.mem_cons_of_mem _ (ih hscan ?_)
      rw [List.length_drop]
      omega
    | further hs hr ih =>
      rw [sc.pieces_of_none hs]
      rw [List.length_cons] at hplace
      exact ih hscan (by omega)

variable (edit : Hit α → Edited)

/-- The matches that a splice replaces, and what it puts in their places. -/
def replacements (s : Text) : List (Match α × Option Edited) :=
  ((sc.matching s).list.map fun m => (m, some (edit m.hit))).filter
    fun a => counted? a.2 ≠ 0

variable {edit}

/-- What is replaced are the hits at visited places that are counted. -/
theorem mem_replacements_iff {s : Text} {a : Match α × Option Edited} :
    a ∈ sc.replacements edit s
      ↔ (∃ r, sc.Visits s r ∧ sc.scan r = some a.1.hit
          ∧ a.1.start + r.length = s.length)
        ∧ a.2 = some (edit a.1.hit) ∧ (edit a.1.hit).count ≠ 0 := by
  have hmem (m : Match α) : m ∈ (sc.matching s).list
      ↔ ∃ r, sc.Visits s r ∧ sc.scan r = some m.hit
        ∧ m.start + r.length = s.length := by
    have h : m ∈ matchesFrom 0 (sc.pieces s) ↔ _ := sc.mem_matchesFrom_iff
    rw [Nat.zero_add] at h
    exact h
  unfold replacements
  rw [List.mem_filter, List.mem_map]
  constructor
  · rintro ⟨⟨m, hm, rfl⟩, hcount⟩
    exact ⟨(hmem m).1 hm, rfl, of_decide_eq_true hcount⟩
  · rintro ⟨hm, hnew, hcount⟩
    obtain ⟨m, answer⟩ := a
    dsimp only at hm hnew hcount
    rw [hnew]
    exact ⟨⟨m, (hmem m).2 hm, rfl⟩, decide_eq_true hcount⟩

theorem inOrder_answered (s : Text) :
    InOrder s 0 (((sc.matching s).list.map
      fun m => (m, some (edit m.hit))).map Prod.fst) := by
  rw [List.map_map]
  have hfst : (Prod.fst ∘ fun m : Match α => (m, some (edit m.hit))) = id :=
    rfl
  rw [hfst, List.map_id]
  exact (sc.matching s).inOrder

/-- Replacements are in order. -/
theorem inOrder_replacements (s : Text) :
    InOrder s 0 ((sc.replacements edit s).map Prod.fst) :=
  (sc.inOrder_answered s).sublist (List.filter_sublist.map Prod.fst)

/-- A splice puts its replacements in their places. -/
theorem text_splice_replacements (s : Text) :
    (sc.splice edit s).text = woven s 0 (sc.replacements edit s) := by
  have h := (sc.isSplice_spliceFrom (fun h (_ : Unit) => (edit h, ())) ()
    s).text
  rw [answers_unit] at h
  exact h.trans (woven_filter_counted (sc.inOrder_answered s)).symm

/-- A stretch that no replaced match reaches into stands in the result,
behind what becomes of the text in front of it. -/
theorem text_splice_of_apart {before t after : Text} (ht : t ≠ [])
    (h : ∀ a ∈ sc.replacements edit (before ++ (t ++ after)),
      a.1.stop ≤ before.length ∨ before.length + t.length ≤ a.1.start) :
    ∃ y, (sc.splice edit (before ++ (t ++ after))).text
      = woven before 0
          ((sc.replacements edit (before ++ (t ++ after))).filter
            fun a => a.1.stop ≤ before.length)
        ++ (t ++ y) := by
  have hpos := List.length_pos_iff.2 ht
  have hinOrder : InOrder (before ++ (t ++ after)) 0
      ((sc.replacements edit (before ++ (t ++ after))).map Prod.fst) :=
    sc.inOrder_replacements _
  obtain ⟨later, heq, hlater⟩ := exists_append_of_apart
    (Nat.lt_add_of_pos_right hpos) hinOrder h
  have hfront : InOrder (before ++ (t ++ after)) 0
      (((sc.replacements edit (before ++ (t ++ after))).filter
        fun a => a.1.stop ≤ before.length).map Prod.fst) :=
    hinOrder.sublist (List.filter_sublist.map Prod.fst)
  have hwoven := woven_append_of_apart (Nat.zero_le before.length)
    (Nat.le_add_right _ t.length) hfront
    (fun a ha => by simpa using (List.mem_filter.1 ha).2) hlater
  rw [← heq, List.take_left, stretch_middle] at hwoven
  exact ⟨_, (sc.text_splice_replacements _).trans hwoven⟩

end Scanner

end ComponentMarkdown
