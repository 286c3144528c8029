/-
What the lines of a segment look like, and the line behind it. Prose holds
no line that opens a fence, and ends in front of one or with the document,
so two runs of prose never meet. A block starts with the line that opens
its fence and ends with the first later line that closes it; if no line
does, it is the last segment.

# The induction

`ofLines` takes one line, then a stretch of further lines, and goes on
with the lines that are left. `ofLines_induction` is the induction along
these steps; it gives the shape of what is taken, so that no proof has to
tell blocks from prose unless it wants to. `exists_lines_of_ofLines` uses
it to find the lines of a segment anywhere among the segments of some
lines; `lines_prose` and `lines_verbatim` read it off for a document.
-/
import ComponentMarkdown.Proofs.Segment.Fence
import ComponentMarkdown.Proofs.Text.Lines

namespace ComponentMarkdown

-- ============================================================== blocks

namespace Fence

/-- The last of these lines closes the block, and none before it does. -/
def ClosedByLast (fence : Fence) (body : List Text) : Prop :=
  ∃ inner closing, body = inner ++ [closing] ∧ fence.Closes closing
    ∧ ∀ line ∈ inner, ¬ fence.Closes line

theorem ClosedByLast.cons {fence : Fence} {line : Text}
    {body : List Text} (hline : ¬ fence.Closes line)
    (h : fence.ClosedByLast body) : fence.ClosedByLast (line :: body) := by
  obtain ⟨inner, closing, rfl, hclosing, hinner⟩ := h
  exact ⟨line :: inner, closing, rfl, hclosing,
    List.forall_mem_cons.2 ⟨hline, hinner⟩⟩

/-- A block ends with its first closing line, or nothing is behind it. -/
theorem block_closed_or {fence : Fence} {opening : Text}
    (ho : fence.Opens opening) (rest : List Text) :
    fence.ClosedByLast (fence.block rest).1
      ∨ (fence.block rest).2 = []
        ∧ ∀ line ∈ (fence.block rest).1, ¬ fence.Closes line := by
  induction rest with
  | nil => exact Or.inr ⟨rfl, by simp [block]⟩
  | cons line rest ih =>
    cases hc : fence.closedBy line with
    | true =>
      rw [block, if_pos hc]
      exact Or.inl ⟨[], line, rfl, (closedBy_iff ho).1 hc, by simp⟩
    | false =>
      have hline : ¬ fence.Closes line := fun h => by
        rw [(closedBy_iff ho).2 h] at hc
        cases hc
      rw [block, if_neg (by simp [hc])]
      rcases ih with h | ⟨hnil, h⟩
      · exact Or.inl (h.cons hline)
      · exact Or.inr ⟨hnil, List.forall_mem_cons.2 ⟨hline, h⟩⟩

theorem not_opens_of_ofLine?_eq_none {line : Text}
    (h : ofLine? line = none) (fence : Fence) : ¬ fence.Opens line := by
  intro ho
  rw [ofLine?_eq_some_iff.2 ho] at h
  cases h

end Fence

-- ========================================================== the shapes

namespace Segment

/-- What is known of the lines of a segment and of the lines behind it. -/
def Shape (own after : List Text) : Kind → Prop
  | .prose =>
    (∀ line ∈ own, ∀ fence : Fence, ¬ fence.Opens line)
      ∧ ∀ line ∈ after.head?, ∃ fence : Fence, fence.Opens line
  | .verbatim =>
    ∃ (fence : Fence) (opening : Text) (body : List Text),
      own = opening :: body ∧ fence.Opens opening
      ∧ (fence.ClosedByLast body
        ∨ after = [] ∧ ∀ line ∈ body, ¬ fence.Closes line)

theorem shape_proseRun {line : Text} (hf : Fence.ofLine? line = none)
    (rest : List Text) :
    Shape (line :: (proseRun rest).1) (proseRun rest).2 .prose := by
  constructor
  · refine List.forall_mem_cons.2
      ⟨Fence.not_opens_of_ofLine?_eq_none hf, fun l hl => ?_⟩
    have := List.all_eq_true.1 List.all_takeWhile l hl
    exact Fence.not_opens_of_ofLine?_eq_none (by simpa using this)
  · intro l hl
    have hnot := List.head?_dropWhile_not
      (fun l => (Fence.ofLine? l).isNone) rest
    rw [Option.mem_def] at hl
    unfold proseRun at hl
    rw [hl] at hnot
    obtain ⟨fence, hfence⟩ : ∃ fence, Fence.ofLine? l = some fence :=
      Option.isSome_iff_exists.1 (by simpa using hnot)
    exact ⟨fence, Fence.ofLine?_eq_some_iff.1 hfence⟩

theorem shape_block {fence : Fence} {line : Text}
    (hf : Fence.ofLine? line = some fence) (rest : List Text) :
    Shape (line :: (fence.block rest).1) (fence.block rest).2 .verbatim :=
  have ho := Fence.ofLine?_eq_some_iff.1 hf
  ⟨fence, line, _, rfl, ho, Fence.block_closed_or ho rest⟩

-- ====================================================== the induction

/-- One segment at a time: a line, the lines that join it, and the lines
after them. -/
theorem ofLines_induction {motive : Nat → List Text → Prop}
    (nil : ∀ offset, motive offset [])
    (cons : ∀ offset kind line body after,
      ofLines offset (line :: (body ++ after))
        = ⟨kind, line ++ body.flatten, offset⟩
          :: ofLines (offset + (line ++ body.flatten).byteLength) after →
      Shape (line :: body) after kind →
      motive (offset + (line ++ body.flatten).byteLength) after →
      motive offset (line :: (body ++ after)))
    (offset : Nat) (lines : List Text) : motive offset lines := by
  fun_induction ofLines offset lines with
  | case1 offset => exact nil offset
  | case2 offset line rest fence hf run text ih =>
    have h := cons offset .verbatim line run.1 run.2
    rw [show run.1 ++ run.2 = rest from fence.block_append rest] at h
    exact h (by rw [ofLines, hf]) (shape_block hf rest) ih
  | case3 offset line rest hf run text ih =>
    have h := cons offset .prose line run.1 run.2
    rw [show run.1 ++ run.2 = rest from proseRun_append rest] at h
    exact h (by rw [ofLines, hf]) (shape_proseRun hf rest) ih

/-- A segment is a stretch of the lines, of the shape of its kind, and the
segments behind it are those of the lines behind. -/
theorem exists_lines_of_ofLines {offset : Nat} {lines : List Text}
    {before after : List Segment} {s : Segment}
    (h : ofLines offset lines = before ++ s :: after) :
    ∃ pre own post, lines = pre ++ own ++ post ∧ s.text = own.flatten
      ∧ after = ofLines s.stop post ∧ Shape own post s.kind := by
  induction offset, lines using ofLines_induction generalizing before with
  | nil offset => simp [ofLines] at h
  | cons offset kind line body behind heq hshape ih =>
    rw [heq] at h
    cases before with
    | nil =>
      cases h
      exact ⟨[], line :: body, behind, rfl, rfl, rfl, hshape⟩
    | cons t before =>
      rw [List.cons_append, List.cons.injEq] at h
      obtain ⟨pre, own, post, rfl, hrest⟩ := ih h.2
      refine ⟨line :: (body ++ pre), own, post, ?_, hrest⟩
      simp only [List.cons_append, List.append_assoc]

/-- Segments start with a block when their lines open a fence. -/
theorem kind_of_head?_ofLines {offset : Nat} {lines : List Text}
    (h : ∀ line ∈ lines.head?, ∃ fence : Fence, fence.Opens line)
    {s : Segment} (hs : s ∈ (ofLines offset lines).head?) :
    s.kind = .verbatim := by
  cases lines with
  | nil => simp [ofLines] at hs
  | cons line rest =>
    obtain ⟨fence, ho⟩ := h line rfl
    rw [ofLines, Fence.ofLine?_eq_some_iff.2 ho] at hs
    cases hs
    rfl

-- ====================================================== in a document

variable {document : Text} {before after : List Segment} {s : Segment}

/-- A segment of a document has the shape of its kind, and is cut into its
lines as the document is. -/
theorem exists_shape (h : ofDocument document = before ++ s :: after) :
    ∃ post, after = ofLines s.stop post ∧ Shape s.text.lines post s.kind := by
  obtain ⟨pre, own, post, hlines, htext, hafter, hshape⟩ :=
    exists_lines_of_ofLines h
  rw [← Text.lines_flatten_of_infix hlines, ← htext] at hshape
  exact ⟨post, hafter, hshape⟩

/-- No line of prose opens a fence, and a block is behind it or nothing. -/
theorem lines_prose (h : ofDocument document = before ++ s :: after)
    (hk : s.kind = .prose) :
    (∀ line ∈ s.text.lines, ∀ fence : Fence, ¬ fence.Opens line)
      ∧ ∀ t ∈ after.head?, t.kind = .verbatim := by
  obtain ⟨post, hafter, hshape⟩ := exists_shape h
  rw [hk] at hshape
  refine ⟨hshape.1, fun t ht => ?_⟩
  rw [hafter] at ht
  exact kind_of_head?_ofLines hshape.2 ht

/-- A block is an opening line, and the lines through the first that
closes it; if none does, nothing is behind the block. -/
theorem lines_verbatim (h : ofDocument document = before ++ s :: after)
    (hk : s.kind = .verbatim) :
    ∃ (fence : Fence) (opening : Text) (body : List Text),
      s.text.lines = opening :: body ∧ fence.Opens opening
      ∧ (fence.ClosedByLast body
        ∨ after = [] ∧ ∀ line ∈ body, ¬ fence.Closes line) := by
  obtain ⟨post, hafter, hshape⟩ := exists_shape h
  rw [hk] at hshape
  obtain ⟨fence, opening, body, hown, ho, hend⟩ := hshape
  refine ⟨fence, opening, body, hown, ho, hend.imp_right fun ⟨hnil, hb⟩ => ?_⟩
  rw [hnil, ofLines] at hafter
  exact ⟨hafter, hb⟩

end Segment

end ComponentMarkdown
