/-
What a scanner finds, and when a splice leaves a text alone.

A scanner looks at the head of a text, then behind what it took, or one
character further where it took nothing. `Visits` lists the places it
comes to, and its hits are what it takes at these (`mem_hits_iff`). A
splice counts nothing exactly if its edit counts nothing at any hit
(`count_splice_eq_zero_iff`); where the edits share a state, each hit
has to be looked at with the state the hits before it leave behind
(`count_spliceFrom_eq_zero_iff`).
-/
import ComponentMarkdown.Splice

namespace ComponentMarkdown

variable {α σ : Type}

/-- The hit that a piece is. -/
def Piece.hit? : Piece α → Option (Hit α)
  | .char _ => none
  | .hit h => some h

namespace Scanner

variable (sc : Scanner α)

-- ============================================================ hits

/-- What a scanner finds in a text, in order. -/
def hits (s : Text) : List (Hit α) := (sc.pieces s).filterMap Piece.hit?

/-- Behind a hit, the next is looked for. -/
theorem hits_of_hit {s : Text} {h : Hit α} (hs : sc.scan s = some h) :
    sc.hits s = h :: sc.hits (s.drop h.taken.length) := by
  unfold hits
  rw [sc.pieces_of_hit hs]
  rfl

theorem hits_nil : sc.hits [] = [] := by
  unfold hits
  rw [sc.pieces_nil]
  rfl

/-- Where there is none, the next character is looked at. -/
theorem hits_of_none {c : Char} {rest : Text}
    (hs : sc.scan (c :: rest) = none) :
    sc.hits (c :: rest) = sc.hits rest := by
  unfold hits
  rw [sc.pieces_of_none hs]
  rfl

/-- A scanner gets through a text by taking a hit or passing over a
character. -/
theorem induction_on {motive : Text → Prop} (s : Text)
    (nil : motive [])
    (hit : ∀ s h, sc.scan s = some h → motive (s.drop h.taken.length)
      → motive s)
    (char : ∀ c rest, sc.scan (c :: rest) = none → motive rest
      → motive (c :: rest)) : motive s := by
  induction hn : s.length using Nat.strongRecOn generalizing s with
  | _ n ih =>
    cases hs : sc.scan s with
    | some h =>
      have hpos := sc.taken_length_pos hs
      have hle := sc.taken_length_le hs
      have hshort : (s.drop h.taken.length).length < n := by
        rw [List.length_drop]
        omega
      exact hit s h hs (ih _ hshort _ rfl)
    | none =>
      cases s with
      | nil => exact nil
      | cons c rest =>
        have hshort : rest.length < n := by
          rw [← hn]
          exact Nat.lt_succ_self _
        exact char c rest hs (ih _ hshort rest rfl)

-- ========================================================== visits

/-- The places a scanner comes to in a text, each given by the text from
there on. -/
inductive Visits : Text → Text → Prop
  | here (s : Text) : Visits s s
  | behind {s r : Text} {h : Hit α} (hs : sc.scan s = some h)
      (hr : Visits (s.drop h.taken.length) r) : Visits s r
  | further {c : Char} {rest r : Text} (hs : sc.scan (c :: rest) = none)
      (hr : Visits rest r) : Visits (c :: rest) r

variable {sc}

/-- A place that is come to from a place that is come to. -/
theorem Visits.trans {s r u : Text} (hr : sc.Visits s r)
    (hu : sc.Visits r u) : sc.Visits s u := by
  induction hr with
  | here => exact hu
  | behind hs _ ih => exact .behind hs (ih hu)
  | further hs _ ih => exact .further hs (ih hu)

/-- A place in a text is where its rest starts. -/
theorem Visits.isSuffix {s r : Text} (hr : sc.Visits s r) : r <:+ s := by
  induction hr with
  | here s => exact List.suffix_refl s
  | behind hs _ ih => exact ih.trans (List.drop_suffix _ _)
  | further hs _ ih => exact ih.trans (List.suffix_cons _ _)

/-- Behind what it takes, a scanner goes on. -/
theorem visits_iff_of_hit {s r : Text} {h : Hit α} (hs : sc.scan s = some h) :
    sc.Visits s r ↔ r = s ∨ sc.Visits (s.drop h.taken.length) r := by
  constructor
  · intro hr
    cases hr with
    | here => exact Or.inl rfl
    | behind hs' hr =>
      rw [hs] at hs'
      cases hs'
      exact Or.inr hr
    | further hs' hr =>
      rw [hs] at hs'
      cases hs'
  · rintro (rfl | hr)
    · exact .here r
    · exact .behind hs hr

/-- Where it takes nothing, it looks one character further. -/
theorem visits_iff_of_none {c : Char} {s r : Text}
    (hs : sc.scan (c :: s) = none) :
    sc.Visits (c :: s) r ↔ r = c :: s ∨ sc.Visits s r := by
  constructor
  · intro hr
    cases hr with
    | here => exact Or.inl rfl
    | behind hs' hr =>
      rw [hs] at hs'
      cases hs'
    | further hs' hr => exact Or.inr hr
  · rintro (rfl | hr)
    · exact .here _
    · exact .further hs hr

variable (sc)

/-- A hit is what the scanner takes at a place it comes to. -/
theorem mem_hits_iff {s : Text} {h : Hit α} :
    h ∈ sc.hits s ↔ ∃ r, sc.Visits s r ∧ sc.scan r = some h := by
  constructor
  · intro hmem
    induction s using sc.induction_on with
    | nil =>
      rw [hits_nil] at hmem
      cases hmem
    | hit s g hs ih =>
      rw [sc.hits_of_hit hs] at hmem
      rcases List.mem_cons.1 hmem with rfl | hmem
      · exact ⟨s, .here s, hs⟩
      · obtain ⟨r, hr, hscan⟩ := ih hmem
        exact ⟨r, .behind hs hr, hscan⟩
    | char c rest hs ih =>
      rw [sc.hits_of_none hs] at hmem
      obtain ⟨r, hr, hscan⟩ := ih hmem
      exact ⟨r, .further hs hr, hscan⟩
  · rintro ⟨r, hr, hscan⟩
    induction hr with
    | here s =>
      rw [sc.hits_of_hit hscan]
      exact List.mem_cons_self
    | behind hs _ ih =>
      rw [sc.hits_of_hit hs]
      exact List.mem_cons_of_mem _ (ih hscan)
    | further hs _ ih =>
      rw [sc.hits_of_none hs]
      exact ih hscan

/-- A scanner finds nothing if it takes nothing anywhere in the text:
before its first hit it comes to every place. -/
theorem hits_eq_nil_iff {s : Text} :
    sc.hits s = [] ↔ ∀ r, r <:+ s → sc.scan r = none := by
  constructor
  · intro hnone
    induction s with
    | nil =>
      intro r hr
      rw [List.suffix_nil.1 hr]
      cases hs : sc.scan [] with
      | none => rfl
      | some h =>
        rw [sc.hits_of_hit hs] at hnone
        cases hnone
    | cons c s ih =>
      cases hs : sc.scan (c :: s) with
      | some h =>
        rw [sc.hits_of_hit hs] at hnone
        cases hnone
      | none =>
        rw [sc.hits_of_none hs] at hnone
        intro r hr
        rcases List.suffix_cons_iff.1 hr with rfl | hr
        · exact hs
        · exact ih hnone r hr
  · intro hnone
    apply List.eq_nil_iff_forall_not_mem.2
    intro h hmem
    obtain ⟨r, hr, hscan⟩ := sc.mem_hits_iff.1 hmem
    rw [hnone r hr.isSuffix] at hscan
    cases hscan

-- ================================================== quiet splices

variable (edit : Hit α → σ → Edited × σ)

/-- Whether an edit counts nothing at any of some hits, each with the
state that the hits before it leave behind. -/
def Quiet : List (Hit α) → σ → Prop
  | [], _ => True
  | h :: hs, st => (edit h st).1.count = 0 ∧ Quiet hs (edit h st).2

/-- The state that some hits leave behind. -/
def stateAfter (hs : List (Hit α)) (st : σ) : σ :=
  hs.foldl (fun st h => (edit h st).2) st

/-- Hits count nothing if the first do not, and the others do not behind them.
-/
theorem quiet_append (hs₁ hs₂ : List (Hit α)) (st : σ) :
    Quiet edit (hs₁ ++ hs₂) st
      ↔ Quiet edit hs₁ st ∧ Quiet edit hs₂ (stateAfter edit hs₁ st) := by
  induction hs₁ generalizing st with
  | nil => simp [Quiet, stateAfter]
  | cons h hs₁ ih =>
    rw [List.cons_append, Quiet, Quiet, ih, and_assoc]
    rfl

/-- A hit stays as it was if its edit counts nothing, and gives way to
the new text otherwise. -/
theorem splicePieces_hit (h : Hit α) (ps : List (Piece α)) (st : σ) :
    splicePieces edit (.hit h :: ps) st
      = if (edit h st).1.count = 0 then
          (⟨h.taken ++ (splicePieces edit ps (edit h st).2).1.text,
            (splicePieces edit ps (edit h st).2).1.count⟩,
            (splicePieces edit ps (edit h st).2).2)
        else
          (⟨(edit h st).1.text ++ (splicePieces edit ps (edit h st).2).1.text,
            (edit h st).1.count
              + (splicePieces edit ps (edit h st).2).1.count⟩,
            (splicePieces edit ps (edit h st).2).2) := rfl

/-- A splice ends in the state that its hits leave. -/
theorem splicePieces_snd (ps : List (Piece α)) (st : σ) :
    (splicePieces edit ps st).2
      = stateAfter edit (ps.filterMap Piece.hit?) st := by
  induction ps generalizing st with
  | nil => rfl
  | cons p ps ih =>
    cases p with
    | char c => exact ih st
    | hit h =>
      rw [List.filterMap_cons_some (show Piece.hit? (.hit h) = some h from rfl),
        splicePieces_hit]
      split <;> exact ih _

/-- A splice of pieces counts nothing exactly if its hits do not. -/
theorem count_splicePieces_eq_zero_iff (ps : List (Piece α)) (st : σ) :
    (splicePieces edit ps st).1.count = 0
      ↔ Quiet edit (ps.filterMap Piece.hit?) st := by
  induction ps generalizing st with
  | nil => simp [splicePieces, Edited.unchanged, Quiet]
  | cons p ps ih =>
    cases p with
    | char c => exact ih st
    | hit h =>
      rw [List.filterMap_cons_some (show Piece.hit? (.hit h) = some h from rfl),
        Quiet, ← ih, splicePieces_hit]
      split
      · rename_i h0
        simp [h0]
      · rename_i h0
        simp [h0]

/-- The state that a splice hands on. -/
theorem spliceFrom_snd (s : Text) (st : σ) :
    (sc.spliceFrom edit st s).2 = stateAfter edit (sc.hits s) st :=
  splicePieces_snd edit _ st

/-- A splice counts nothing exactly if no hit of the text does. -/
theorem count_spliceFrom_eq_zero_iff (s : Text) (st : σ) :
    (sc.spliceFrom edit st s).1.count = 0 ↔ Quiet edit (sc.hits s) st :=
  count_splicePieces_eq_zero_iff edit _ st

-- ============================================ edits without a state

/-- Without a state, each hit counts for itself. -/
theorem quiet_iff_forall {edit : Hit α → Edited} {hs : List (Hit α)}
    {st : Unit} :
    Quiet (fun h (_ : Unit) => (edit h, ())) hs st
      ↔ ∀ h ∈ hs, (edit h).count = 0 := by
  induction hs with
  | nil => simp [Quiet]
  | cons h hs ih => rw [Quiet, List.forall_mem_cons, ih]

/-- A splice counts nothing if its edit counts nothing at any hit. -/
theorem count_splice_eq_zero_iff {edit : Hit α → Edited} {s : Text} :
    (sc.splice edit s).count = 0
      ↔ ∀ h ∈ sc.hits s, (edit h).count = 0 := by
  unfold splice
  rw [count_spliceFrom_eq_zero_iff, quiet_iff_forall]

-- ------------------------------------------------ the text of a splice

/-- What stands in a text for a hit once it is spliced. -/
def spliced (edit : Hit α → Edited) (h : Hit α) : Text :=
  if (edit h).count = 0 then h.taken else (edit h).text

theorem splice_nil (edit : Hit α → Edited) : (sc.splice edit []).text = [] := by
  unfold splice spliceFrom
  rw [sc.pieces_nil]
  rfl

theorem splice_of_none {c : Char} {rest : Text}
    (hs : sc.scan (c :: rest) = none) (edit : Hit α → Edited) :
    (sc.splice edit (c :: rest)).text = c :: (sc.splice edit rest).text := by
  unfold splice spliceFrom
  rw [sc.pieces_of_none hs]
  rfl

/-- A splice puts something in place of the first hit, and goes on behind it.
-/
theorem splice_of_hit {s : Text} {h : Hit α} (hs : sc.scan s = some h)
    (edit : Hit α → Edited) :
    (sc.splice edit s).text
      = spliced edit h ++ (sc.splice edit (s.drop h.taken.length)).text := by
  unfold splice spliceFrom
  rw [sc.pieces_of_hit hs, splicePieces_hit]
  unfold spliced
  split <;> rfl

/-- A substitution counts if it puts something in place. -/
theorem count_substitution_eq_zero_iff {h : Hit α} {new? : Option Text} :
    (substitution h new?).count = 0 ↔ new? = none := by
  cases new? with
  | none => exact iff_of_true rfl rfl
  | some t => simp [substitution]

/-- Nothing is replaced if there is a replacement for no hit. -/
theorem count_replace_eq_zero_iff {new? : Hit α → Option Text}
    {s : Text} :
    (sc.replace new? s).count = 0 ↔ ∀ h ∈ sc.hits s, new? h = none := by
  unfold replace
  rw [count_splice_eq_zero_iff]
  simp only [count_substitution_eq_zero_iff]

end Scanner

end ComponentMarkdown
