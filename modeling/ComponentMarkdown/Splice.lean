/-
Splicing: replacing the parts of a text that a scanner recognises.

A `Scanner` looks at the head of a text and either takes a non-empty
beginning of it or nothing. Trying it at every position, and going on
behind whatever it takes, cuts the text into `Piece`s: hits, leftmost
first and never overlapping, and the single characters between them. An
edit then decides hit by hit. All hits are found before any replacement is
made, so a replacement cannot create or destroy one.

Main statements: the pieces are the text (`pieces_flatten`), and a splice
that counts nothing gives the text back (`spliceFrom_text_of_count_zero`).
-/
import ComponentMarkdown.Text.Basic

namespace ComponentMarkdown

-- ======================================================= edited text

/-- A text after editing, with the number of substitutions made. -/
structure Edited where
  text : Text
  count : Nat
  deriving DecidableEq, Repr

/-- The text as it was. -/
def Edited.unchanged (t : Text) : Edited := ⟨t, 0⟩

-- ========================================================== scanners

/-- What a scanner recognised: the characters it takes and what it read
from them. -/
structure Hit (α : Type) where
  taken : Text
  value : α
  deriving DecidableEq, Repr

/-- A recogniser of something at the head of a text. It takes a beginning
of the text, and never an empty one. -/
structure Scanner (α : Type) where
  scan : Text → Option (Hit α)
  taken_ne_nil : ∀ {s h}, scan s = some h → h.taken ≠ []
  taken_isPrefix : ∀ {s h}, scan s = some h → h.taken <+: s

/-- A text in pieces: what was recognised, and the characters between. -/
inductive Piece (α : Type) where
  | char (c : Char)
  | hit (h : Hit α)
  deriving DecidableEq, Repr

namespace Piece

variable {α : Type}

/-- The characters that a piece covers. -/
def text : Piece α → Text
  | .char c => [c]
  | .hit h => h.taken

/-- What was read, if the piece is a hit. -/
def value? : Piece α → Option α
  | .char _ => none
  | .hit h => some h.value

@[simp] theorem text_char (c : Char) : (Piece.char c : Piece α).text = [c] :=
  rfl

@[simp] theorem text_hit (h : Hit α) : (Piece.hit h).text = h.taken := rfl

end Piece

namespace Scanner

variable {α σ : Type} (sc : Scanner α)

theorem taken_length_pos {s : Text} {h : Hit α} (hs : sc.scan s = some h) :
    0 < h.taken.length :=
  List.length_pos_iff.mpr (sc.taken_ne_nil hs)

theorem taken_length_le {s : Text} {h : Hit α} (hs : sc.scan s = some h) :
    h.taken.length ≤ s.length :=
  (sc.taken_isPrefix hs).length_le

/-- The hits of a scanner in a text, leftmost first, each search going on
behind the hit before it. -/
def pieces (s : Text) : List (Piece α) :=
  match _hs : sc.scan s with
  | some h => .hit h :: pieces (s.drop h.taken.length)
  | none =>
    match s with
    | [] => []
    | c :: rest => .char c :: pieces rest
termination_by s.length
decreasing_by
  · have h₁ := sc.taken_length_pos _hs
    have h₂ := sc.taken_length_le _hs
    simp only [List.length_drop]
    omega
  · exact Nat.lt_succ_self _

theorem pieces_of_hit {s : Text} {h : Hit α} (hs : sc.scan s = some h) :
    sc.pieces s = .hit h :: sc.pieces (s.drop h.taken.length) := by
  rw [pieces]
  split
  · rename_i h' hs'
    rw [hs] at hs'
    cases hs'
    rfl
  · rename_i hs'
    rw [hs] at hs'
    cases hs'

theorem pieces_nil : sc.pieces [] = [] := by
  rw [pieces]
  split
  · rename_i h hs
    have h₁ := sc.taken_length_pos hs
    have h₂ := sc.taken_length_le hs
    simp only [List.length_nil] at h₂
    omega
  · rfl

theorem pieces_of_none {c : Char} {rest : Text}
    (hs : sc.scan (c :: rest) = none) :
    sc.pieces (c :: rest) = .char c :: sc.pieces rest := by
  rw [pieces]
  split
  · rename_i h hs'
    rw [hs] at hs'
    cases hs'
  · rfl

/-- The pieces of a text, put together, are the text. -/
theorem pieces_flatten (s : Text) :
    ((sc.pieces s).map Piece.text).flatten = s := by
  induction hn : s.length using Nat.strongRecOn generalizing s with
  | _ n ih =>
    cases hs : sc.scan s with
    | some h =>
      have h₁ := sc.taken_length_pos hs
      have h₂ := sc.taken_length_le hs
      obtain ⟨tail, ht⟩ := sc.taken_isPrefix hs
      have hdrop : s.drop h.taken.length = tail := by
        rw [← ht]
        simp
      rw [sc.pieces_of_hit hs, hdrop]
      simp only [List.map_cons, List.flatten_cons, Piece.text_hit]
      rw [ih tail.length (by
        have := congrArg List.length ht
        simp only [List.length_append] at this
        omega) tail rfl, ht]
    | none =>
      cases s with
      | nil => simp [sc.pieces_nil]
      | cons c rest =>
        rw [sc.pieces_of_none hs]
        simp only [List.map_cons, List.flatten_cons, Piece.text_char,
          List.singleton_append]
        rw [ih rest.length (by simp at hn; omega) rest rfl]

-- ========================================================== splicing

/-- Edits hit after hit, from left to right, handing a state along. What
an edit returns stands in for the hit if it counts at least one
substitution; otherwise the hit stays as it was. -/
def splicePieces (edit : Hit α → σ → Edited × σ) :
    List (Piece α) → σ → Edited × σ
  | [], st => (.unchanged [], st)
  | .char c :: ps, st =>
    let (rest, st) := splicePieces edit ps st
    (⟨c :: rest.text, rest.count⟩, st)
  | .hit h :: ps, st =>
    let (new, st) := edit h st
    let (rest, st) := splicePieces edit ps st
    if new.count = 0 then (⟨h.taken ++ rest.text, rest.count⟩, st)
    else (⟨new.text ++ rest.text, new.count + rest.count⟩, st)

/-- Splices into a text, with a state that the edits share. -/
def spliceFrom (edit : Hit α → σ → Edited × σ) (st : σ) (s : Text) :
    Edited × σ :=
  splicePieces edit (sc.pieces s) st

/-- Splices into a text by an edit that depends on the hit alone. -/
def splice (edit : Hit α → Edited) (s : Text) : Edited :=
  (sc.spliceFrom (fun h (_ : Unit) => (edit h, ())) () s).1

/-- An edit that either replaces the whole hit, which counts one, or keeps
it. -/
def substitution (h : Hit α) : Option Text → Edited
  | some t => ⟨t, 1⟩
  | none => .unchanged h.taken

/-- Replaces hits, counting one for each. -/
def replace (new? : Hit α → Option Text) (s : Text) : Edited :=
  sc.splice (fun h => substitution h (new? h)) s

/-- Pieces spliced without a substitution are as they were. -/
theorem splicePieces_text_of_count_zero (edit : Hit α → σ → Edited × σ)
    (ps : List (Piece α)) (st : σ)
    (h : (splicePieces edit ps st).1.count = 0) :
    (splicePieces edit ps st).1.text = (ps.map Piece.text).flatten := by
  induction ps generalizing st with
  | nil => rfl
  | cons p ps ih =>
    cases p with
    | char c =>
      simp only [splicePieces, List.map_cons, List.flatten_cons,
        Piece.text_char, List.singleton_append] at h ⊢
      rw [ih st h]
    | hit m =>
      simp only [splicePieces] at h ⊢
      split at h
      · rename_i h0
        simp only [if_pos h0, List.map_cons, List.flatten_cons,
          Piece.text_hit] at h ⊢
        rw [ih _ h]
      · simp only at h
        omega

/-- A splice that counts nothing gives the text back. -/
theorem spliceFrom_text_of_count_zero (edit : Hit α → σ → Edited × σ)
    (st : σ) (s : Text) (h : (sc.spliceFrom edit st s).1.count = 0) :
    (sc.spliceFrom edit st s).1.text = s :=
  (splicePieces_text_of_count_zero edit _ st h).trans (sc.pieces_flatten s)

end Scanner

end ComponentMarkdown
