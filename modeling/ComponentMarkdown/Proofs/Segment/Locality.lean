/-
Where a document can be taken apart. Behind the end of a line, and outside
of blocks, a complete fenced block is a segment of its own; what stands
before it is cut as if nothing followed, and what stands behind it as if
nothing preceded (`ofDocument_append_block`).

The lines of a segment determine it: whatever lines of the shape of a kind
come first, they are the first segment (`ofLines_of_shape`). The shape looks
at the lines behind a segment in two places only. A block that nothing
closes must have none behind it, and prose needs the next line to open a
fence. So lines can be put behind other lines without moving a cut, if these
do not end in such a block and the first of the new lines opens a fence
(`ofLines_append`).
-/
import ComponentMarkdown.Proofs.Segment.Blocks

namespace ComponentMarkdown

-- ========================================================= line by line

namespace Text

/-- Lines that end in their only line feed are the cut of a text that ends
its last line. -/
theorem lines_flatten_of_ended {ls : List Text}
    (h : ∀ line ∈ ls, ∃ body, '\n' ∉ body ∧ line = body ++ ['\n']) :
    lines ls.flatten = ls ∧ endsWith '\n' true ls.flatten = true := by
  induction ls with
  | nil => exact ⟨rfl, rfl⟩
  | cons line ls ih =>
    obtain ⟨⟨body, hbody, rfl⟩, hls⟩ := List.forall_mem_cons.1 h
    obtain ⟨hlines, hended⟩ := ih hls
    rw [List.flatten_cons, List.append_assoc, List.singleton_append]
    refine ⟨?_, ?_⟩
    · rw [lines_ended hbody, hlines]
    · rw [endsWith_append]
      exact hended

/-- A text whose last character is a line feed, if it has one, ends its last
line. -/
theorem endsWith_of_getLast? {a : Text}
    (h : ∀ c ∈ a.getLast?, c = '\n') : endsWith '\n' true a = true := by
  rcases List.eq_nil_or_concat a with rfl | ⟨front, c, rfl⟩
  · rfl
  · have hc : c = '\n' := h c (by simp)
    rw [List.concat_eq_append, endsWith_concat, hc, beq_self_eq_true]

end Text

-- ==================================================== complete blocks

/-- A complete fenced block: the line that opens its fence, lines that do
not close it, and the line that does, each with its line feed. -/
structure FencedBlock where
  fence : Fence
  opening : Text
  inner : List Text
  closing : Text
  opens : fence.Opens opening
  inner_open : ∀ line ∈ inner, ¬ fence.Closes line
  closes : fence.Closes closing
  ended : ∀ line ∈ opening :: (inner ++ [closing]),
    ∃ body, '\n' ∉ body ∧ line = body ++ ['\n']

namespace FencedBlock

/-- The block as it is written. -/
def written (f : FencedBlock) : Text :=
  (f.opening :: (f.inner ++ [f.closing])).flatten

/-- The block is cut into its lines, and ends the last of them. -/
theorem lines_written (f : FencedBlock) :
    f.written.lines = f.opening :: (f.inner ++ [f.closing])
      ∧ Text.endsWith '\n' true f.written = true :=
  Text.lines_flatten_of_ended f.ended

theorem closedByLast (f : FencedBlock) :
    f.fence.ClosedByLast (f.inner ++ [f.closing]) :=
  ⟨f.inner, f.closing, rfl, f.closes, f.inner_open⟩

end FencedBlock

namespace Segment

/-- Whether the segment is a block that none of its lines closes. -/
def Unterminated (s : Segment) : Prop :=
  s.kind = .verbatim ∧ ∃ (fence : Fence) (opening : Text) (body : List Text),
    s.text.lines = opening :: body ∧ fence.Opens opening
      ∧ ∀ line ∈ body, ¬ fence.Closes line

theorem proseRun_of_not_opens {body after : List Text}
    (hbody : ∀ line ∈ body, ∀ fence : Fence, ¬ fence.Opens line)
    (hafter : ∀ line ∈ after.head?, ∃ fence : Fence, fence.Opens line) :
    proseRun (body ++ after) = (body, after) := by
  have hplain : ∀ line ∈ body, (Fence.ofLine? line).isNone = true := by
    intro line hline
    rw [Option.isNone_iff_eq_none, Option.eq_none_iff_forall_ne_some]
    exact fun fence hf => hbody line hline fence (Fence.ofLine?_eq_some_iff.1 hf)
  have hstop : ∀ line ∈ after.head?, (Fence.ofLine? line).isNone = false := by
    intro line hline
    obtain ⟨fence, ho⟩ := hafter line hline
    rw [Fence.ofLine?_eq_some_iff.2 ho]
    rfl
  have htaken : after.takeWhile (fun line => (Fence.ofLine? line).isNone) = []
      ∧ after.dropWhile (fun line => (Fence.ofLine? line).isNone) = after := by
    cases after with
    | nil => exact ⟨rfl, rfl⟩
    | cons line after =>
      have hline := hstop line rfl
      exact ⟨List.takeWhile_cons_of_neg (by simp [hline]),
        List.dropWhile_cons_of_neg (by simp [hline])⟩
  unfold proseRun
  dsimp only
  rw [List.takeWhile_append_of_pos hplain, List.dropWhile_append_of_pos hplain,
    htaken.1, htaken.2, List.append_nil]

/-- Lines of the shape of a kind are a segment of that kind. -/
theorem ofLines_of_shape {kind : Kind} {line : Text} {body after : List Text}
    (h : Shape (line :: body) after kind) (offset : Nat) :
    ofLines offset (line :: (body ++ after))
      = ⟨kind, line ++ body.flatten, offset⟩
        :: ofLines (offset + (line ++ body.flatten).byteLength) after := by
  cases kind with
  | prose =>
    obtain ⟨hown, hafter⟩ := h
    obtain ⟨hline, hbody⟩ := List.forall_mem_cons.1 hown
    have hnone : Fence.ofLine? line = none := by
      rw [Option.eq_none_iff_forall_ne_some]
      exact fun fence hf => hline fence (Fence.ofLine?_eq_some_iff.1 hf)
    rw [ofLines, hnone]
    dsimp only
    rw [proseRun_of_not_opens hbody hafter]
  | verbatim =>
    obtain ⟨fence, opening, body', heq, ho, hclosed⟩ := h
    obtain ⟨rfl, rfl⟩ := List.cons.inj heq
    have hblock : fence.block (body ++ after) = (body, after) := by
      rcases hclosed with hclosed | ⟨rfl, hclosed⟩
      · exact Fence.block_of_closedByLast ho hclosed after
      · rw [List.append_nil]
        exact Fence.block_of_not_closes ho hclosed
    rw [ofLines, Fence.ofLine?_eq_some_iff.2 ho]
    dsimp only
    rw [hblock]

-- ===================================================== behind each other

/-- Lines can be put behind others that do not end in an unterminated block,
if the first of them opens a fence. -/
theorem ofLines_append {offset : Nat} {own after : List Text}
    (hcut : Text.LineCut own)
    (hown : ∀ s ∈ (ofLines offset own).getLast?, ¬ s.Unterminated)
    (hafter : ∀ line ∈ after.head?, ∃ fence : Fence, fence.Opens line) :
    ofLines offset (own ++ after)
      = ofLines offset own
        ++ ofLines (offset + Text.byteLength own.flatten) after := by
  induction offset, own using ofLines_induction with
  | nil offset =>
    rw [ofLines]
    rfl
  | cons offset kind line body rest heq hshape ih =>
    have hrest : ∀ s ∈ (ofLines (offset + (line ++ body.flatten).byteLength)
        rest).getLast?, ¬ s.Unterminated := by
      intro s hs
      refine hown s ?_
      rw [heq, List.getLast?_cons, Option.mem_def.1 hs]
      rfl
    have hmore : Shape (line :: body) (rest ++ after) kind := by
      cases kind with
      | prose =>
        refine ⟨hshape.1, ?_⟩
        cases rest with
        | nil => exact hafter
        | cons next rest => exact hshape.2
      | verbatim =>
        obtain ⟨fence, opening, body', hlines, ho, hclosed⟩ := hshape
        refine ⟨fence, opening, body', hlines, ho, Or.inl ?_⟩
        rcases hclosed with hclosed | ⟨rfl, hopen⟩
        · exact hclosed
        · -- then this is the last segment, and nothing closes it
          have hlast : (⟨.verbatim, line ++ body.flatten, offset⟩ : Segment)
              ∈ (ofLines offset (line :: (body ++ []))).getLast? := by
            rw [heq, ofLines]
            rfl
          have htext : Text.lines (line ++ body.flatten) = line :: body :=
            Text.lines_flatten_of_lineCut (hcut.left (a := line :: body))
          exact absurd ⟨rfl, fence, opening, body', htext.trans hlines, ho,
            hopen⟩ (hown _ hlast)
    have hwhole : line :: (body ++ rest) ++ after
        = line :: (body ++ (rest ++ after)) := by simp
    have hlength : offset + (line ++ body.flatten).byteLength
          + Text.byteLength rest.flatten
        = offset + Text.byteLength (line :: (body ++ rest)).flatten := by
      rw [List.flatten_cons, List.flatten_append, ← List.append_assoc,
        Text.byteLength_append (line ++ body.flatten), Nat.add_assoc]
    rw [hwhole, ofLines_of_shape hmore, ih hcut.tail.right hrest, heq, hlength]
    rfl

/-- A segment further on in a document. -/
def shifted (n : Nat) (s : Segment) : Segment := { s with offset := n + s.offset }

theorem ofLines_shifted (n offset : Nat) (lines : List Text) :
    ofLines (n + offset) lines = (ofLines offset lines).map (shifted n) := by
  fun_induction ofLines offset lines with
  | case1 => rw [ofLines]; rfl
  | case2 offset line rest fence hf run text ih =>
    rw [ofLines, hf, List.map_cons, ← ih, ← Nat.add_assoc]
    rfl
  | case3 offset line rest hf run text ih =>
    rw [ofLines, hf, List.map_cons, ← ih, ← Nat.add_assoc]
    rfl

/-- A complete block behind a document that ends its last line, and does not
end in an unterminated block, is a segment of its own: before it stand the
segments of the one document, and behind it those of the other. -/
theorem ofDocument_append_block {a : Text}
    (hended : ∀ c ∈ a.getLast?, c = '\n')
    (hclosed : ∀ s ∈ (ofDocument a).getLast?, ¬ s.Unterminated)
    (f : FencedBlock) (b : Text) :
    ofDocument (a ++ (f.written ++ b))
      = ofDocument a ++ ⟨.verbatim, f.written, a.byteLength⟩
        :: (ofDocument b).map (shifted (a ++ f.written).byteLength) := by
  obtain ⟨hlines, hfended⟩ := f.lines_written
  have hcut : Text.lines (a ++ (f.written ++ b))
      = a.lines ++ f.opening :: ((f.inner ++ [f.closing]) ++ b.lines) := by
    rw [Text.lines_append_of_ended (Text.endsWith_of_getLast? hended),
      Text.lines_append_of_ended hfended, hlines]
    rfl
  have hshape : Shape (f.opening :: (f.inner ++ [f.closing])) b.lines
      .verbatim :=
    ⟨f.fence, f.opening, _, rfl, f.opens, Or.inl f.closedByLast⟩
  have hwritten : f.opening ++ (f.inner ++ [f.closing]).flatten = f.written :=
    rfl
  have hopens : ∀ line ∈ (f.opening
      :: ((f.inner ++ [f.closing]) ++ b.lines)).head?,
      ∃ fence : Fence, fence.Opens line := by
    intro line hline
    cases hline
    exact ⟨f.fence, f.opens⟩
  have hlength : 0 + a.byteLength + f.written.byteLength
      = (a ++ f.written).byteLength + 0 := by
    rw [Text.byteLength_append]
    omega
  unfold ofDocument
  rw [hcut, ofLines_append (Text.lineCut_lines a) hclosed hopens,
    Text.lines_flatten, ofLines_of_shape hshape, hwritten, hlength,
    ofLines_shifted, Nat.zero_add]

end Segment

end ComponentMarkdown
