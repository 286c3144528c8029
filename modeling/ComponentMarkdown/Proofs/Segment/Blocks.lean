/-
The fenced blocks of a document, and when they survive a change of the
prose around them. If every stretch of prose gives way to a text in which
no line opens a fence, and still ends its last line where it did, then the
new document is cut in the same places and its blocks are those of the old
one (`blocks_rewritten`).
-/
import ComponentMarkdown.Proofs.Segment.NoFence

namespace ComponentMarkdown

-- =================================================== lines put together

namespace Text

/-- Behind the end of a line, a text is cut afresh. -/
theorem lines_append_of_ended {a : Text} (h : endsWith '\n' true a = true)
    (b : Text) : lines (a ++ b) = lines a ++ lines b := by
  induction a with
  | nil => rfl
  | cons c a ih =>
    rw [endsWith_cons] at h
    by_cases hc : c = '\n'
    · rw [hc] at h
      rw [List.cons_append, lines, lines, if_pos hc, if_pos hc, ih h,
        List.cons_append]
    · rw [beq_false_of_ne hc] at h
      have hrest := ih (endsWith_mono (fun _ => rfl) h)
      rw [List.cons_append, lines, lines, if_neg hc, if_neg hc, hrest]
      cases a with
      | nil => cases h
      | cons d a =>
        have hne : lines (d :: a) ≠ [] := by
          intro hnil
          have := lines_flatten (d :: a)
          rw [hnil] at this
          cases this
        obtain ⟨line, more, hl⟩ := List.exists_cons_of_ne_nil hne
        rw [hl]
        rfl

/-- Lines with others behind them end their last line. -/
theorem LineCut.endsWith_left {a b : List Text} (h : LineCut (a ++ b))
    (hb : b ≠ []) : endsWith '\n' true a.flatten = true := by
  induction a with
  | nil => rfl
  | cons line a ih =>
    have hrest := ih h.tail
    rw [List.cons_append] at h
    generalize hm : a ++ b = more at h
    cases h with
    | unended hne hline =>
      exact absurd (List.append_eq_nil_iff.1 hm).2 hb
    | @ended body _ hline hmore =>
      rw [List.flatten_cons, endsWith_append, endsWith_concat]
      exact hrest

end Text

-- ============================================================ one block

namespace Fence

/-- A block is read to its closing line, whatever follows. -/
theorem block_of_closedByLast {fence : Fence} {opening : Text}
    (ho : fence.Opens opening) {body : List Text}
    (h : fence.ClosedByLast body) (after : List Text) :
    fence.block (body ++ after) = (body, after) := by
  obtain ⟨inner, closing, rfl, hclosing, hinner⟩ := h
  induction inner with
  | nil =>
    rw [List.nil_append, List.singleton_append, block,
      if_pos ((closedBy_iff ho).2 hclosing)]
  | cons line inner ih =>
    obtain ⟨hline, hinner⟩ := List.forall_mem_cons.1 hinner
    rw [List.cons_append, List.cons_append, block,
      if_neg (mt (closedBy_iff ho).1 hline), ih hinner]

/-- A block that nothing closes takes all that is there. -/
theorem block_of_not_closes {fence : Fence} {opening : Text}
    (ho : fence.Opens opening) {body : List Text}
    (h : ∀ line ∈ body, ¬ fence.Closes line) :
    fence.block body = (body, []) := by
  induction body with
  | nil => rfl
  | cons line body ih =>
    obtain ⟨hline, hbody⟩ := List.forall_mem_cons.1 h
    rw [block, if_neg (mt (closedBy_iff ho).1 hline), ih hbody]

end Fence

-- =========================================================== all blocks

namespace Segment

/-- The texts of the blocks among some segments. -/
def blockTexts (segments : List Segment) : List Text :=
  (segments.filter fun s => s.kind = .verbatim).map text

/-- The fenced blocks of a document, in order. -/
def blocks (document : Text) : List Text := blockTexts (ofDocument document)

/-- Blocks are the same wherever their lines start. -/
theorem blockTexts_ofLines_offset (offset offset' : Nat)
    (lines : List Text) :
    blockTexts (ofLines offset lines) = blockTexts (ofLines offset' lines) := by
  fun_induction ofLines offset lines generalizing offset' with
  | case1 => rw [ofLines]
  | case2 offset line rest fence hf run text ih =>
    conv => rhs; rw [ofLines, hf]
    exact congrArg (text :: ·) (ih _)
  | case3 offset line rest hf run text ih =>
    conv => rhs; rw [ofLines, hf]
    exact ih _

/-- Lines of prose hold no block. -/
theorem blockTexts_cons_prose {line : Text}
    (h : ∀ fence : Fence, ¬ fence.Opens line) (offset : Nat)
    (rest : List Text) :
    blockTexts (ofLines offset (line :: rest))
      = blockTexts (ofLines offset rest) := by
  have hnone : Fence.ofLine? line = none := by
    cases hf : Fence.ofLine? line with
    | none => rfl
    | some fence => exact absurd (Fence.ofLine?_eq_some_iff.1 hf) (h fence)
  rw [ofLines, hnone]
  show blockTexts (ofLines _ (proseRun rest).2) = _
  cases rest with
  | nil => exact blockTexts_ofLines_offset _ _ _
  | cons next rest =>
    cases hf : Fence.ofLine? next with
    | some fence =>
      have hrun : (proseRun (next :: rest)).2 = next :: rest := by
        simp [proseRun, hf]
      rw [hrun]
      exact blockTexts_ofLines_offset _ _ _
    | none =>
      have hrun : (proseRun (next :: rest)).2 = (proseRun rest).2 := by
        simp [proseRun, hf]
      rw [hrun]
      conv => rhs; rw [ofLines, hf]
      exact blockTexts_ofLines_offset _ _ _

theorem blockTexts_append_prose {own : List Text}
    (h : ∀ line ∈ own, ∀ fence : Fence, ¬ fence.Opens line) (offset : Nat)
    (rest : List Text) :
    blockTexts (ofLines offset (own ++ rest))
      = blockTexts (ofLines offset rest) := by
  induction own with
  | nil => rfl
  | cons line own ih =>
    obtain ⟨hline, hown⟩ := List.forall_mem_cons.1 h
    rw [List.cons_append, blockTexts_cons_prose hline, ih hown]

/-- A block is found whatever follows it, if it is closed or nothing
does. -/
theorem blockTexts_cons_block {fence : Fence} {opening : Text}
    (ho : fence.Opens opening) {body rest : List Text}
    (h : fence.ClosedByLast body
      ∨ rest = [] ∧ ∀ line ∈ body, ¬ fence.Closes line) (offset : Nat) :
    blockTexts (ofLines offset (opening :: (body ++ rest)))
      = (opening ++ body.flatten) :: blockTexts (ofLines offset rest) := by
  have hblock : fence.block (body ++ rest) = (body, rest) := by
    rcases h with h | ⟨rfl, h⟩
    · exact Fence.block_of_closedByLast ho h rest
    · rw [List.append_nil]
      exact Fence.block_of_not_closes ho h
  rw [ofLines, Fence.ofLine?_eq_some_iff.2 ho]
  dsimp only
  rw [hblock]
  exact congrArg ((opening ++ body.flatten) :: ·)
    (blockTexts_ofLines_offset _ _ _)

-- ====================================================== rewritten prose

/-- Whether a text may stand in for a segment without moving a block: a
block itself, or for prose a text that opens no fence and still ends its
last line. -/
def StandsIn (s : Segment) (new : Text) : Prop :=
  match s.kind with
  | .verbatim => new = s.text
  | .prose =>
    (∀ line ∈ new.lines, ∀ fence : Fence, ¬ fence.Opens line)
      ∧ (Text.endsWith '\n' true s.text = true →
        Text.endsWith '\n' true new = true)

/-- Prose in front of a text adds no block to it, if the text starts on a
line of its own. -/
theorem blockTexts_prose_append {new more : Text}
    (hnew : ∀ line ∈ new.lines, ∀ fence : Fence, ¬ fence.Opens line)
    (hended : Text.endsWith '\n' true new = true ∨ more = []) (offset : Nat) :
    blockTexts (ofLines offset (Text.lines (new ++ more)))
      = blockTexts (ofLines offset (Text.lines more)) := by
  have hlines : Text.lines (new ++ more)
      = Text.lines new ++ Text.lines more := by
    rcases hended with hended | rfl
    · exact Text.lines_append_of_ended hended more
    · rw [List.append_nil, Text.lines, List.append_nil]
  rw [hlines, blockTexts_append_prose hnew]

/-- A block in front of it adds itself. -/
theorem blockTexts_block_append {fence : Fence} {opening : Text}
    {body : List Text} {more : Text} (ho : fence.Opens opening)
    (hcut : Text.LineCut (opening :: body))
    (hclosed : fence.ClosedByLast body
      ∨ more = [] ∧ ∀ line ∈ body, ¬ fence.Closes line)
    (hended : Text.endsWith '\n' true (opening ++ body.flatten) = true
      ∨ more = []) (offset : Nat) :
    blockTexts (ofLines offset (Text.lines (opening ++ body.flatten ++ more)))
      = (opening ++ body.flatten)
        :: blockTexts (ofLines offset (Text.lines more)) := by
  have hown : Text.lines (opening ++ body.flatten) = opening :: body :=
    Text.lines_flatten_of_lineCut hcut
  have hlines : Text.lines (opening ++ body.flatten ++ more)
      = opening :: (body ++ Text.lines more) := by
    rcases hended with hended | rfl
    · rw [Text.lines_append_of_ended hended, hown]
      rfl
    · rw [List.append_nil, hown, Text.lines, List.append_nil]
  rw [hlines, blockTexts_cons_block ho]
  refine hclosed.imp_right fun h => ⟨?_, h.2⟩
  rw [h.1, Text.lines]

theorem blockTexts_rewritten {out : Segment → Text} {offset : Nat}
    {lines : List Text} (hcut : Text.LineCut lines)
    (h : ∀ s ∈ ofLines offset lines, StandsIn s (out s)) (offset' : Nat) :
    blockTexts (ofLines offset'
        (Text.lines ((ofLines offset lines).flatMap out)))
      = blockTexts (ofLines offset lines) := by
  induction offset, lines using ofLines_induction with
  | nil offset =>
    rw [ofLines]
    exact congrArg blockTexts (by rw [List.flatMap_nil, Text.lines, ofLines])
  | cons offset kind line body after heq hshape ih =>
    rw [heq, List.forall_mem_cons] at h
    obtain ⟨hs, hafter⟩ := h
    have hrest := ih (hcut.right (a := line :: body)) hafter
    rw [heq, List.flatMap_cons]
    generalize hmore : (ofLines (offset
      + (line ++ body.flatten).byteLength) after).flatMap out = more at hrest ⊢
    have hnone (hnil : after = []) : more = [] := by
      rw [← hmore, hnil, ofLines, List.flatMap_nil]
    have hended : Text.endsWith '\n' true (line ++ body.flatten) = true
        ∨ more = [] := by
      cases after with
      | nil => exact Or.inr (hnone rfl)
      | cons next after =>
        exact Or.inl (hcut.endsWith_left (a := line :: body) (by simp))
    generalize hout : out ⟨kind, line ++ body.flatten, offset⟩ = new
    rw [hout] at hs
    unfold StandsIn at hs
    cases kind with
    | prose =>
      obtain ⟨hnew, hend⟩ := hs
      rw [blockTexts_prose_append hnew (hended.imp_left hend), hrest]
      rfl
    | verbatim =>
      obtain ⟨fence, opening, inner, hown, ho, hclosed⟩ := hshape
      obtain ⟨rfl, rfl⟩ := List.cons.inj hown
      have hnew : new = line ++ body.flatten := hs
      rw [hnew, blockTexts_block_append ho (hcut.left (b := after))
        (hclosed.imp_right fun h => ⟨hnone h.1, h.2⟩) hended, hrest]
      rfl

/-- The blocks of a document stay if each segment gives way to a text that
may stand in for it. -/
theorem blocks_rewritten {out : Segment → Text} {document : Text}
    (h : ∀ s ∈ ofDocument document, StandsIn s (out s)) :
    blocks ((ofDocument document).flatMap out) = blocks document :=
  blockTexts_rewritten (Text.lineCut_lines document) h 0

end Segment

end ComponentMarkdown
