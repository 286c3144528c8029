/-
Whether an edit leaves the fenced blocks of a document alone. It never
reaches into one, but cut afresh, the new document may have a block where
the old one had prose: a class that is merged into a container leaves its
place, and a marker behind it can come to the start of a line
(`blocks_edit_moved_marker`). The blocks stay whenever the callout tags with
a class to merge are written on one line or without a marker
(`blocks_edit`).
-/
import ComponentMarkdown.Proofs.Rule.Fences
import ComponentMarkdown.Proofs.Segment.Blocks
import ComponentMarkdown.Proofs.Transformer.Reference

namespace ComponentMarkdown

-- ============================================================= one text

/-- Whether the callout tags that a pipeline comes upon in a text can be
moved to containers without moving a marker to the start of a line. -/
def Pipeline.Anchored (p : Pipeline) (s : Text) : Prop :=
  ∀ before after, p.rules = before ++ Rule.callouts :: after →
    ∀ tag ∈ calloutTagsOf (Pipeline.run ⟨before⟩ s).text, tag.Anchored

/-- A run of known rules leaves the fences of anchored prose. -/
theorem Pipeline.leavesFences_run {p : Pipeline}
    (hp : ∀ rule ∈ p.rules, rule ∈ Registry.rules) {s : Text}
    (hs : p.Anchored s) :
    LeavesFences (p.run s).tally.total s (p.run s).text := by
  refine composes_leavesFences.run fun before rule after heq => ?_
  have hmem : rule ∈ p.rules := by
    rw [heq]
    exact List.mem_append_cons_self
  refine Rule.leavesFences_apply (hp rule hmem) fun hcallouts => ?_
  rw [hcallouts] at heq
  exact hs before after heq

-- ============================================================ a document

namespace Transformer

variable {t : Transformer}
  (ht : ∀ rule ∈ t.pipeline.rules, rule ∈ Registry.rules)

include ht

/-- What a segment makes may stand in for it. -/
theorem standsIn_segmentOutput {source : Text} {s : Segment}
    (hs : s ∈ Segment.ofDocument source)
    (hanchored : s.kind = .prose → t.pipeline.Anchored s.text) :
    s.StandsIn (t.segmentOutput s).text := by
  unfold Segment.StandsIn segmentOutput
  cases hk : s.kind with
  | verbatim => rfl
  | prose =>
    obtain ⟨hfences, hend⟩ := Pipeline.leavesFences_run ht (hanchored hk)
    obtain ⟨before, after, hdoc⟩ := List.append_of_mem hs
    have hlines := (Segment.lines_prose hdoc hk).1
    refine ⟨?_, hend true⟩
    have hsource : NoFence [] (s.text ++ []) := by
      rw [List.append_nil, NoFence.iff_lines (by simp)]
      exact hlines
    have hout := hfences [] [] hsource
    rw [List.append_nil, NoFence.iff_lines (by simp)] at hout
    exact hout

/-- An edit leaves the fenced blocks of a document as they are, cut afresh
from the new text, if its callout tags keep their markers away from the
start of a line. -/
theorem blocks_edit {source : Text}
    (h : ∀ s ∈ Segment.ofDocument source, s.kind = .prose →
      t.pipeline.Anchored s.text) :
    Segment.blocks ((t.edit source).text?.getD source)
      = Segment.blocks source := by
  have htext := (follows_edit t source).text
  rw [Segment.joined_segments] at htext
  rw [htext]
  exact Segment.blocks_rewritten fun s hs =>
    standsIn_segmentOutput ht hs (h s hs)

omit ht

theorem eq_of_append_not_mem {α : Type} {x : α} {l before after : List α}
    (hx : x ∉ l) (h : l ++ [x] = before ++ x :: after) : before = l := by
  induction l generalizing before with
  | nil =>
    have hlength := congrArg List.length h
    simp only [List.length_append, List.length_cons, List.length_nil]
      at hlength
    exact List.length_eq_zero_iff.1 (by omega)
  | cons y l ih =>
    rw [List.mem_cons, not_or] at hx
    cases before with
    | nil => exact absurd (List.cons.inj h).1 (Ne.symm hx.1)
    | cons z before =>
      obtain ⟨hz, hrest⟩ := List.cons.inj h
      rw [hz, ih hx.2 hrest]

/-- The callouts come last of the known rules. -/
theorem before_callouts_standard {before after : List Rule}
    (h : standard.pipeline.rules = before ++ Rule.callouts :: after) :
    before = [.braceAttributes, .iframeClosing, .attributeCasing] := by
  refine eq_of_append_not_mem (fun hmem => ?_) h
  have hnames := List.mem_map_of_mem (f := Rule.name) hmem
  exact absurd hnames (by decide)

/-- A class on a line of its own, with a block behind the tag. -/
theorem blocks_edit_class_line :
    (∀ s ∈ Segment.ofDocument
        "<Note\n class=\"a\">\n~~~\n<Tip>\n~~~\n</Note>".toList,
      s.kind = .prose → standard.pipeline.Anchored s.text)
      ∧ Segment.blocks ((standard.edit
          "<Note\n class=\"a\">\n~~~\n<Tip>\n~~~\n</Note>".toList).text?.getD
          "<Note\n class=\"a\">\n~~~\n<Tip>\n~~~\n</Note>".toList)
        = ["~~~\n<Tip>\n~~~\n".toList] := by
  have hanchored : ∀ s ∈ Segment.ofDocument
        "<Note\n class=\"a\">\n~~~\n<Tip>\n~~~\n</Note>".toList,
      s.kind = .prose → standard.pipeline.Anchored s.text := by
    intro s hs hk before after hrules
    have hbefore := before_callouts_standard hrules
    have hall : ∀ s ∈ Segment.ofDocument
          "<Note\n class=\"a\">\n~~~\n<Tip>\n~~~\n</Note>".toList,
        s.kind = .prose → ∀ tag ∈ calloutTagsOf (Pipeline.run
          ⟨[.braceAttributes, .iframeClosing, .attributeCasing]⟩ s.text).text,
        '\x60' ∉ tag.attributes ∧ '~' ∉ tag.attributes := by decide +kernel
    rw [hbefore]
    exact fun tag htag _ _ _ _ => Or.inr (hall s hs hk tag htag)
  refine ⟨hanchored, ?_⟩
  rw [blocks_edit (t := standard) (fun _ h => h) hanchored]
  decide +kernel

/-- The class of a callout goes, and the tildes behind it come to the start
of the line: what was a tag and prose becomes a block to the end of the
document. -/
theorem blocks_edit_moved_marker :
    Segment.blocks "<Note\n class=\"a\" ~~~>\nx\n</Note>\n".toList = []
      ∧ Segment.blocks ((standard.edit
          "<Note\n class=\"a\" ~~~>\nx\n</Note>\n".toList).text?.getD
          "<Note\n class=\"a\" ~~~>\nx\n</Note>\n".toList)
        = [" ~~~>\nx\n</div>\n".toList] := by
  decide +kernel

end Transformer

end ComponentMarkdown
