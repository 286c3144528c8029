/-
Segments whatever the line ends. A return is a blank at the end of its line
like the line feed, so a fence is opened and closed by the same lines with
it as without. A document with returns before its line feeds is cut into
the same segments, each with returns before its line feeds
(`ofDocument_crlf`); only the offsets grow.
-/
import ComponentMarkdown.Proofs.Segment.Fence
import ComponentMarkdown.Proofs.Text.LineEnds

namespace ComponentMarkdown

open Text

-- ============================================================== fences

namespace Fence

theorem unindent?_crlf (line : Text) :
    unindent? (crlf line) = (unindent? line).map crlf := by
  unfold unindent?
  rw [takeWhile_crlf (by decide), dropWhile_crlf (by decide),
    crlf_takeWhile (by decide)]
  split <;> rfl

/-- A run of markers is as long as it was, and the returns are behind it. -/
theorem runLength_crlf {marker : Char}
    (hm : marker = '\x60' ∨ marker = '~') (t : Text) :
    runLength marker (crlf t) = runLength marker t
      ∧ (crlf t).drop (runLength marker t)
        = crlf (t.drop (runLength marker t)) := by
  have hends : ('\r' == marker) = ('\n' == marker)
      ∧ ('\n' == marker) = false := by
    rcases hm with rfl | rfl <;> decide
  have hrun : (crlf t).takeWhile (· == marker) = t.takeWhile (· == marker) := by
    rw [takeWhile_crlf hends.1, crlf_takeWhile hends.2]
  have hdrop (u : Text) : u.drop (u.takeWhile (· == marker)).length
      = u.dropWhile (· == marker) := by
    have hsplit := List.takeWhile_append_dropWhile (p := (· == marker))
      (l := u)
    conv => lhs; arg 2; rw [← hsplit]
    exact List.drop_left
  unfold runLength
  rw [hrun]
  refine ⟨rfl, ?_⟩
  rw [← hrun, hdrop, dropWhile_crlf hends.1, hrun, hdrop]

theorem ofUnindented?_crlf (t : Text) :
    ofUnindented? (crlf t) = ofUnindented? t := by
  cases t with
  | nil => rfl
  | cons c t =>
    by_cases hc : c = '\x60' ∨ c = '~'
    · have hfeed : c ≠ '\n' := by
        rcases hc with rfl | rfl <;> decide
      obtain ⟨hrun, hdrop⟩ := runLength_crlf hc (c :: t)
      rw [crlf_char hfeed] at hrun hdrop ⊢
      have htick : '\x60' ∈ (c :: crlf t).drop (runLength c (c :: t))
          ↔ '\x60' ∈ (c :: t).drop (runLength c (c :: t)) := by
        rw [hdrop, mem_crlf_iff (by decide)]
      unfold ofUnindented?
      simp only [hrun, htick]
    · have hnone (d : Char) (u : Text) (hd : ¬ (d = '\x60' ∨ d = '~')) :
          ofUnindented? (d :: u) = none := by
        unfold ofUnindented?
        simp only [hd, false_and, if_false]
      rw [hnone c t hc]
      by_cases hfeed : c = '\n'
      · subst hfeed
        exact hnone '\r' _ (by decide)
      · rw [crlf_char hfeed]
        exact hnone c _ hc

/-- Returns neither make nor break an opening fence. -/
theorem ofLine?_crlf (line : Text) : ofLine? (crlf line) = ofLine? line := by
  unfold ofLine?
  rw [unindent?_crlf]
  cases unindent? line with
  | none => rfl
  | some t => exact ofUnindented?_crlf t

theorem closedBy_crlf {fence : Fence}
    (hm : fence.marker = '\x60' ∨ fence.marker = '~') (line : Text) :
    fence.closedBy (crlf line) = fence.closedBy line := by
  unfold closedBy
  rw [unindent?_crlf]
  cases unindent? line with
  | none => rfl
  | some t =>
    obtain ⟨hrun, hdrop⟩ := runLength_crlf hm t
    dsimp only [Option.map_some]
    rw [hrun, hdrop, trim_crlf, isEmpty_crlf]

theorem block_crlf {fence : Fence}
    (hm : fence.marker = '\x60' ∨ fence.marker = '~') (lines : List Text) :
    fence.block (lines.map crlf)
      = ((fence.block lines).1.map crlf, (fence.block lines).2.map crlf) := by
  induction lines with
  | nil => rfl
  | cons line lines ih =>
    rw [List.map_cons, block, block, closedBy_crlf hm, ih]
    cases fence.closedBy line with
    | true => rfl
    | false => rfl

end Fence

-- ============================================================ segments

namespace Segment

theorem proseRun_crlf (lines : List Text) :
    proseRun (lines.map crlf)
      = ((proseRun lines).1.map crlf, (proseRun lines).2.map crlf) := by
  have hplain : (fun line : Text => (Fence.ofLine? line).isNone) ∘ crlf
      = fun line => (Fence.ofLine? line).isNone := by
    funext line
    show (Fence.ofLine? (crlf line)).isNone = _
    rw [Fence.ofLine?_crlf]
  unfold proseRun
  simp only [List.takeWhile_map, List.dropWhile_map, hplain]

theorem crlf_lines (line : Text) (body : List Text) :
    crlf line ++ (body.map crlf).flatten = crlf (line ++ body.flatten) := by
  rw [crlf_append, crlf_flatten]

/-- The kinds and texts of segments. -/
def contents (segments : List Segment) : List (Kind × Text) :=
  segments.map fun s => (s.kind, s.text)

theorem ofLines_crlf (offset offset' : Nat) (lines : List Text) :
    contents (ofLines offset' (lines.map crlf))
      = (contents (ofLines offset lines)).map fun p => (p.1, crlf p.2) := by
  fun_induction ofLines offset lines generalizing offset' with
  | case1 offset =>
    rw [List.map_nil, ofLines]
    rfl
  | case2 offset line rest fence hf run text ih =>
    rw [List.map_cons, ofLines, Fence.ofLine?_crlf, hf]
    simp only [Fence.block_crlf (Fence.ofLine?_eq_some_iff.1 hf).1]
    rw [crlf_lines]
    exact congrArg (_ :: ·) (ih _)
  | case3 offset line rest hf run text ih =>
    rw [List.map_cons, ofLines, Fence.ofLine?_crlf, hf]
    simp only [proseRun_crlf]
    rw [crlf_lines]
    exact congrArg (_ :: ·) (ih _)

/-- A document is cut into the same segments. -/
theorem ofDocument_crlf (document : Text) :
    contents (ofDocument (crlf document))
      = (contents (ofDocument document)).map fun p => (p.1, crlf p.2) := by
  unfold ofDocument
  rw [lines_crlf, ofLines_crlf]

end Segment

end ComponentMarkdown
