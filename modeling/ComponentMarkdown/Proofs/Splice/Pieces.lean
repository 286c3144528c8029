/-
The pieces of a text that is written part by part. Where a scanner takes
exactly what was written, or nothing of it, the pieces of the text are those
of its parts, one after the other (`pieces_flatMap`); the text of a splice is
what stands for each piece (`text_splice`), and its count is what is counted
at each (`count_splice`).
-/
import ComponentMarkdown.Proofs.Splice.Hits
import Mathlib.Algebra.GroupWithZero.Nat

namespace ComponentMarkdown.Scanner

variable {α ι : Type} (sc : Scanner α)

-- ============================================================== pieces

/-- What is taken at the head of a text is its first piece. -/
theorem pieces_append_of_hit {a s : Text} {v : α}
    (h : sc.scan (a ++ s) = some ⟨a, v⟩) :
    sc.pieces (a ++ s) = .hit ⟨a, v⟩ :: sc.pieces s := by
  rw [sc.pieces_of_hit h, List.drop_left]

/-- Where nothing is taken, the pieces are the characters. -/
theorem pieces_append_of_none {a : Text}
    (h : ∀ c ∈ a, ∀ s, sc.scan (c :: s) = none) (s : Text) :
    sc.pieces (a ++ s) = a.map .char ++ sc.pieces s := by
  induction a with
  | nil => rfl
  | cons c a ih =>
    obtain ⟨hc, ha⟩ := List.forall_mem_cons.1 h
    rw [List.cons_append, sc.pieces_of_none (hc _), ih ha]
    rfl

/-- Parts that are cut each by itself are cut one after the other. What
follows a part may matter, as long as a part may always follow. -/
theorem pieces_flatMap {P : Text → Prop} {write : ι → Text}
    {pieces : ι → List (Piece α)} (hP : ∀ i s, P s → P (write i ++ s))
    (h : ∀ i s, P s → sc.pieces (write i ++ s) = pieces i ++ sc.pieces s)
    (l : List ι) {s : Text} (hs : P s) :
    sc.pieces (l.flatMap write ++ s) = l.flatMap pieces ++ sc.pieces s := by
  suffices hall : P (l.flatMap write ++ s)
      ∧ sc.pieces (l.flatMap write ++ s) = l.flatMap pieces ++ sc.pieces s from
    hall.2
  induction l with
  | nil => exact ⟨hs, rfl⟩
  | cons i l ih =>
    obtain ⟨hrest, hpieces⟩ := ih
    rw [List.flatMap_cons, List.flatMap_cons, List.append_assoc,
      List.append_assoc, h i _ hrest, hpieces]
    exact ⟨hP i _ hrest, rfl⟩

-- ===================================================== what is put there

/-- What stands for a piece once a text is spliced. -/
def splicedPiece (edit : Hit α → Edited) : Piece α → Text
  | .char c => [c]
  | .hit h => spliced edit h

/-- A splice is made piece by piece. -/
theorem text_splice (edit : Hit α → Edited) (s : Text) :
    (sc.splice edit s).text = (sc.pieces s).flatMap (splicedPiece edit) := by
  induction s using sc.induction_on with
  | nil =>
    rw [splice_nil, sc.pieces_nil]
    rfl
  | hit s h hs ih =>
    rw [sc.splice_of_hit hs, sc.pieces_of_hit hs, ih, List.flatMap_cons]
    rfl
  | char c rest hs ih =>
    rw [sc.splice_of_none hs, sc.pieces_of_none hs, ih, List.flatMap_cons]
    rfl

/-- Characters that are no hits stay. -/
theorem splicedPiece_chars (edit : Hit α → Edited) (t : Text) :
    (t.map Piece.char).flatMap (splicedPiece edit) = t := by
  induction t with
  | nil => rfl
  | cons c t ih =>
    rw [List.map_cons, List.flatMap_cons, ih]
    rfl

/-- And they stay where a state is handed along. -/
theorem text_splicePieces_chars {σ : Type} (edit : Hit α → σ → Edited × σ)
    (t : Text) (ps : List (Piece α)) (st : σ) :
    (splicePieces edit (t.map .char ++ ps) st).1.text
      = t ++ (splicePieces edit ps st).1.text := by
  induction t with
  | nil => rfl
  | cons c t ih =>
    show c :: (splicePieces edit (t.map .char ++ ps) st).1.text = _
    rw [ih]
    rfl

-- ====================================================== what is counted

/-- What is counted at some pieces once a text is spliced. -/
def counted (edit : Hit α → Edited) : List (Piece α) → Nat
  | [] => 0
  | .char _ :: ps => counted edit ps
  | .hit h :: ps => (edit h).count + counted edit ps

/-- What is counted in two runs of pieces adds up. -/
theorem counted_append (edit : Hit α → Edited) (ps qs : List (Piece α)) :
    counted edit (ps ++ qs) = counted edit ps + counted edit qs := by
  induction ps with
  | nil => rw [List.nil_append, counted, Nat.zero_add]
  | cons p ps ih =>
    cases p with
    | char c => exact ih
    | hit h =>
      show (edit h).count + counted edit (ps ++ qs) = _
      rw [ih, counted, Nat.add_assoc]

theorem counted_chars (edit : Hit α → Edited) (t : Text) :
    counted edit (t.map .char) = 0 := by
  induction t with
  | nil => rfl
  | cons c t ih => exact ih

/-- What is counted at parts one after the other adds up. -/
theorem counted_flatMap (edit : Hit α → Edited) (pieces : ι → List (Piece α))
    (l : List ι) :
    counted edit (l.flatMap pieces)
      = (l.map fun i => counted edit (pieces i)).sum := by
  induction l with
  | nil => rfl
  | cons i l ih =>
    rw [List.flatMap_cons, counted_append, ih, List.map_cons, List.sum_cons]

/-- A splice counts what is counted in its pieces. -/
theorem count_splice (edit : Hit α → Edited) (s : Text) :
    (sc.splice edit s).count = counted edit (sc.pieces s) := by
  have hall (ps : List (Piece α)) :
      (splicePieces (fun h (_ : Unit) => (edit h, ())) ps ()).1.count
        = counted edit ps := by
    induction ps with
    | nil => rfl
    | cons p ps ih =>
      cases p with
      | char c => exact ih
      | hit h =>
        rw [splicePieces_hit, counted, ← ih]
        split
        · rename_i hzero
          rw [hzero, Nat.zero_add]
        · rfl
  exact hall (sc.pieces s)

-- ======================================================= replacements

/-- A replacement stands for its hit. -/
theorem spliced_substitution (new? : Hit α → Option Text) (h : Hit α) :
    spliced (fun h => substitution h (new? h)) h
      = (new? h).getD h.taken := by
  have hall (o : Option Text) : (if (substitution h o).count = 0 then h.taken
      else (substitution h o).text) = o.getD h.taken := by
    cases o with
    | none => rfl
    | some new => rfl
  exact hall (new? h)

end ComponentMarkdown.Scanner
