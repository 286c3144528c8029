/-
Splicing whatever the line ends. A scanner sees through the returns before
line feeds if it finds the same with them as without, and never starts at
such a return (`SeesThrough`). A hit that starts with a line feed then has
the return in front of it, outside; all other returns are inside hits or
between them (`PiecesAlike`).

An edit that turns such hits into alike texts, starting with the character
that the hit starts with, turns the whole text into an alike one. How many
returns each hit leaves behind is counted along
(`SeesThrough.spliceFrom`).
-/
import ComponentMarkdown.Proofs.Splice.Pieces
import ComponentMarkdown.Proofs.Text.LineEnds

namespace ComponentMarkdown

open Text

variable {α σ : Type}

namespace Scanner

-- ======================================================= alike pieces

/-- To find the same with returns before the line feeds. What is read may
differ, as `Alike` says. -/
structure SeesThrough (sc : Scanner α) (Alike : α → α → Prop) : Prop where
  /-- No hit starts with a return before a line feed. -/
  returns : ∀ t, sc.scan ('\r' :: '\n' :: t) = none
  missed : ∀ {c t}, sc.scan (c :: t) = none → sc.scan (c :: crlf t) = none
  found : ∀ {c t tail v}, sc.scan (c :: t) = some ⟨c :: tail, v⟩ →
    ∃ v', Alike v v' ∧ sc.scan (c :: crlf t) = some ⟨c :: crlf tail, v'⟩

/-- Pieces of two texts, of which the second has returns before its line
feeds. -/
inductive PiecesAlike (sc : Scanner α) (Alike : α → α → Prop) :
    List (Piece α) → List (Piece α) → Prop
  | nil : PiecesAlike sc Alike [] []
  | char (c : Char) {ps ps' : List (Piece α)}
      (h : PiecesAlike sc Alike ps ps') :
      PiecesAlike sc Alike (.char c :: ps)
        ((returnFor c).map .char ++ .char c :: ps')
  | hit {c : Char} {s tail : Text} {v v' : α} {ps ps' : List (Piece α)}
      (hs : sc.scan s = some ⟨c :: tail, v⟩) (hv : Alike v v')
      (h : PiecesAlike sc Alike ps ps') :
      PiecesAlike sc Alike (.hit ⟨c :: tail, v⟩ :: ps)
        ((returnFor c).map .char ++ .hit ⟨c :: crlf tail, v'⟩ :: ps')

variable {sc : Scanner α} {Alike : α → α → Prop}

/-- A return before a line end is a character of its own. -/
theorem SeesThrough.pieces_returnFor (hsc : sc.SeesThrough Alike) (c : Char)
    (t : Text) :
    sc.pieces (returnFor c ++ c :: t)
      = (returnFor c).map .char ++ sc.pieces (c :: t) := by
  unfold returnFor
  split
  · rename_i hc
    rw [hc]
    exact sc.pieces_of_none (hsc.returns t)
  · rfl

/-- The pieces of a text with returns before its line feeds. -/
theorem SeesThrough.pieces (hsc : sc.SeesThrough Alike) (s : Text) :
    PiecesAlike sc Alike (sc.pieces s) (sc.pieces (crlf s)) := by
  induction s using sc.induction_on with
  | nil =>
    rw [crlf_nil, sc.pieces_nil]
    exact .nil
  | char c rest hs ih =>
    rw [sc.pieces_of_none hs, crlf_cons, hsc.pieces_returnFor,
      sc.pieces_of_none (hsc.missed hs)]
    exact .char c ih
  | hit s m hs ih =>
    obtain ⟨taken, v⟩ := m
    obtain ⟨rest, rfl⟩ := sc.taken_isPrefix hs
    obtain ⟨c, tail, rfl⟩ := List.exists_cons_of_ne_nil (sc.taken_ne_nil hs)
    dsimp only at hs ih
    rw [List.drop_left] at ih
    obtain ⟨v', hv, hfound⟩ := hsc.found (c := c) (t := tail ++ rest) hs
    rw [crlf_append, ← List.cons_append] at hfound
    show PiecesAlike sc Alike (sc.pieces (c :: tail ++ rest))
      (sc.pieces (crlf (c :: tail ++ rest)))
    rw [sc.pieces_append_of_hit hs, List.cons_append, crlf_cons,
      hsc.pieces_returnFor, crlf_append, ← List.cons_append,
      sc.pieces_append_of_hit hfound]
    exact .hit hs hv ih

-- ====================================================== alike results

/-- What stands for a hit once it is edited. -/
def resultAt (edit : Hit α → σ → Edited × σ) (h : Hit α) (st : σ) : Text :=
  spliced (fun h => (edit h st).1) h

theorem splicePieces_hit_eq (edit : Hit α → σ → Edited × σ) (h : Hit α)
    (ps : List (Piece α)) (st : σ) :
    splicePieces edit (.hit h :: ps) st
      = (⟨resultAt edit h st ++ (splicePieces edit ps (edit h st).2).1.text,
          (edit h st).1.count + (splicePieces edit ps (edit h st).2).1.count⟩,
        (splicePieces edit ps (edit h st).2).2) := by
  rw [splicePieces_hit]
  unfold resultAt spliced
  split
  · rename_i hcount
    rw [hcount, Nat.zero_add]
  · rfl

theorem splicePieces_chars (edit : Hit α → σ → Edited × σ) (t : Text)
    (ps : List (Piece α)) (st : σ) :
    splicePieces edit (t.map .char ++ ps) st
      = (⟨t ++ (splicePieces edit ps st).1.text,
          (splicePieces edit ps st).1.count⟩,
        (splicePieces edit ps st).2) := by
  induction t with
  | nil => rfl
  | cons c t ih =>
    rw [List.map_cons, List.cons_append, splicePieces, ih]
    rfl

end Scanner

/-- Edited texts with the same count, of which the second has returns before
its line feeds and so many besides. -/
structure Edited.AlikeUpTo (n : Nat) (e e' : Edited) : Prop where
  count : e'.count = e.count
  text : ReturnsUpTo n e.text e'.text

namespace Scanner

/-- An edit that turns alike hits into alike texts. It keeps the first
character of every hit, so that a return in front stays in its place, and
leaves `left` returns behind. -/
def EditsAlike (sc : Scanner α) (Alike : α → α → Prop)
    (edit : Hit α → σ → Edited × σ) (left : Hit α → Nat) : Prop :=
  ∀ ⦃c s tail v v'⦄ st, sc.scan s = some ⟨c :: tail, v⟩ → Alike v v' →
    (edit ⟨c :: crlf tail, v'⟩ st).2 = (edit ⟨c :: tail, v⟩ st).2
      ∧ (edit ⟨c :: crlf tail, v'⟩ st).1.count
        = (edit ⟨c :: tail, v⟩ st).1.count
      ∧ ∃ new new', resultAt edit ⟨c :: tail, v⟩ st = c :: new
        ∧ resultAt edit ⟨c :: crlf tail, v'⟩ st = c :: new'
        ∧ ReturnsUpTo (left ⟨c :: tail, v⟩) new new'

variable {sc : Scanner α} {Alike : α → α → Prop}
  {edit : Hit α → σ → Edited × σ} {left : Hit α → Nat}

/-- Alike pieces are spliced alike. -/
theorem PiecesAlike.splice (hedit : EditsAlike sc Alike edit left)
    {ps ps' : List (Piece α)} (h : PiecesAlike sc Alike ps ps') (st : σ) :
    (splicePieces edit ps' st).2 = (splicePieces edit ps st).2
      ∧ ((splicePieces edit ps st).1).AlikeUpTo
        (((ps.filterMap Piece.hit?).map left).sum)
        (splicePieces edit ps' st).1 := by
  induction h generalizing st with
  | nil => exact ⟨rfl, rfl, returnsUpTo_crlf []⟩
  | char c h ih =>
    obtain ⟨hst, halike⟩ := ih st
    rw [splicePieces_chars]
    exact ⟨hst, halike.count, halike.text.cons c⟩
  | @hit c s tail v v' ps ps' hs hv h ih =>
    obtain ⟨hst, hcount, new, new', hnew, hnew', htext⟩ := hedit st hs hv
    obtain ⟨hrestst, hrest⟩ := ih (edit ⟨c :: tail, v⟩ st).2
    rw [splicePieces_chars, splicePieces_hit_eq, splicePieces_hit_eq, hst,
      hnew, hnew']
    refine ⟨hrestst, ?_, ?_⟩
    · show _ + _ = _ + _
      rw [hcount, hrest.count]
    · exact (htext.append hrest.text).cons c

/-- A splice whatever the line ends: the same state, the same count, and an
alike text but for the returns that the hits leave behind. -/
theorem SeesThrough.spliceFrom (hsc : sc.SeesThrough Alike)
    (hedit : EditsAlike sc Alike edit left) (s : Text) (st : σ) :
    (sc.spliceFrom edit st (crlf s)).2 = (sc.spliceFrom edit st s).2
      ∧ ((sc.spliceFrom edit st s).1).AlikeUpTo ((sc.hits s).map left).sum
        (sc.spliceFrom edit st (crlf s)).1 :=
  (hsc.pieces s).splice hedit st

-- ======================================================= replacements

/-- Two replacements that are alike but for some returns left behind, and
start with the same character; or none, where nothing is left. -/
def ReplacesAlike (c : Char) (n : Nat) (new? new?' : Option Text) : Prop :=
  new? = none ∧ new?' = none ∧ n = 0
    ∨ ∃ new new', new? = some (c :: new) ∧ new?' = some (c :: new')
      ∧ ReturnsUpTo n new new'

theorem replacesAlike_crlf (c : Char) (rest? : Option Text) :
    ReplacesAlike c 0 (rest?.map (c :: ·)) (rest?.map (c :: crlf ·)) := by
  cases rest? with
  | none => exact Or.inl ⟨rfl, rfl, rfl⟩
  | some rest =>
    exact Or.inr ⟨rest, crlf rest, rfl, rfl, returnsUpTo_crlf rest⟩

/-- What a substitution leaves is what it puts in place, or what was taken. -/
theorem resultAt_substitution (f : Hit α → σ → Option Text × σ) (h : Hit α)
    (st : σ) :
    resultAt (fun h st => (substitution h (f h st).1, (f h st).2)) h st
      = (f h st).1.getD h.taken :=
  spliced_substitution (fun h => (f h st).1) h

/-- Replacing hits by what is alike is an alike edit. -/
theorem editsAlike_substitution {f : Hit α → σ → Option Text × σ}
    (h : ∀ ⦃c s tail v v'⦄ st, sc.scan s = some ⟨c :: tail, v⟩ →
      Alike v v' →
      (f ⟨c :: crlf tail, v'⟩ st).2 = (f ⟨c :: tail, v⟩ st).2
        ∧ ReplacesAlike c (left ⟨c :: tail, v⟩) (f ⟨c :: tail, v⟩ st).1
          (f ⟨c :: crlf tail, v'⟩ st).1) :
    EditsAlike sc Alike
      (fun h st => (substitution h (f h st).1, (f h st).2)) left := by
  intro c s tail v v' st hs hv
  obtain ⟨hst, halike⟩ := h st hs hv
  refine ⟨hst, ?_⟩
  rw [resultAt_substitution, resultAt_substitution]
  dsimp only
  rcases halike with ⟨hnone, hnone', hleft⟩ | ⟨new, new', hsome, hsome', htext⟩
  · rw [hnone, hnone', hleft]
    exact ⟨rfl, tail, crlf tail, rfl, rfl, returnsUpTo_crlf tail⟩
  · rw [hsome, hsome']
    exact ⟨rfl, new, new', rfl, rfl, htext⟩

/-- A splice whose hits leave no returns behind. -/
theorem SeesThrough.splice (hsc : sc.SeesThrough Alike)
    {edit : Hit α → Edited}
    (hedit : EditsAlike sc Alike (fun h (_ : Unit) => (edit h, ())) fun _ => 0)
    (s : Text) :
    (sc.splice edit s).AlikeUpTo 0 (sc.splice edit (crlf s)) := by
  have hall := (hsc.spliceFrom hedit s ()).2
  rw [List.map_const', List.sum_replicate_nat, Nat.mul_zero] at hall
  exact hall

/-- A replacement that puts in the same makes the same of both texts. -/
theorem SeesThrough.replace (hsc : sc.SeesThrough Alike)
    {new? : Hit α → Option Text}
    (h : ∀ ⦃c s tail v v'⦄, sc.scan s = some ⟨c :: tail, v⟩ → Alike v v' →
      ReplacesAlike c 0 (new? ⟨c :: tail, v⟩) (new? ⟨c :: crlf tail, v'⟩))
    (s : Text) :
    (sc.replace new? s).AlikeUpTo 0 (sc.replace new? (crlf s)) :=
  hsc.splice (editsAlike_substitution (f := fun h _ => (new? h, ()))
    fun _ _ _ _ _ _ hs hv => ⟨rfl, h hs hv⟩) s

end Scanner

end ComponentMarkdown
