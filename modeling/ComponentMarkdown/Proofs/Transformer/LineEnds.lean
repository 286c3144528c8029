/-
Edits whatever the line ends. A document with returns before its line feeds
is edited like the document without: the same substitutions are counted, and
the new text is the other new text with returns before its line feeds, but
for one return left behind wherever a callout's class is merged that starts
a line (`edit_crlf`).

Each segment is cut as before, the rules for attributes and iframes see the
same text but for the returns, and so do the callouts, which come last. What
they leave behind nothing reads any more.
-/
import ComponentMarkdown.Proofs.Rule.CalloutLineEnds
import ComponentMarkdown.Proofs.Rule.LineEnds
import ComponentMarkdown.Proofs.Rule.Insertions
import ComponentMarkdown.Proofs.Segment.LineEnds
import ComponentMarkdown.Proofs.Transformer.Changed

namespace ComponentMarkdown

open Text

-- ========================================================== pipelines

namespace Pipeline

/-- An output with a return before every line feed. -/
def Output.withReturns (o : Output) : Output := ⟨crlf o.text, o.tally⟩

section

variable {rules : List Rule}
  (h : ∀ rule ∈ rules, ∀ s, (rule.apply s).AlikeUpTo 0 (rule.apply (crlf s)))

theorem Output.absorb_withReturns {rule : Rule}
    (h : ∀ s, (rule.apply s).AlikeUpTo 0 (rule.apply (crlf s)))
    (o : Output) :
    o.withReturns.absorb rule (rule.apply o.withReturns.text)
      = (o.absorb rule (rule.apply o.text)).withReturns := by
  obtain ⟨hcount, htext⟩ := h o.text
  unfold Output.absorb Output.withReturns
  dsimp only
  rw [hcount]
  split
  · rfl
  · rw [htext.eq rfl]

include h

/-- Rules that put nothing before a line end make the same of both texts. -/
theorem resume_withReturns (o : Output) :
    resume o.withReturns rules = (resume o rules).withReturns := by
  induction rules generalizing o with
  | nil => rfl
  | cons rule rules ih =>
    obtain ⟨hrule, hrules⟩ := List.forall_mem_cons.1 h
    rw [resume_cons, resume_cons, Output.absorb_withReturns hrule, ih hrules]

end

/-- The rules that run before the callouts. -/
def beforeCallouts : List Rule :=
  [.braceAttributes, .iframeClosing, .attributeCasing]

/-- The three rules before the last make the same of both texts. -/
theorem run_beforeCallouts_crlf (s : Text) :
    run ⟨beforeCallouts⟩ (crlf s) = (run ⟨beforeCallouts⟩ s).withReturns := by
  refine resume_withReturns (fun rule hrule s => ?_) ⟨s, .empty⟩
  simp only [beforeCallouts, List.mem_cons, List.not_mem_nil, or_false]
    at hrule
  rcases hrule with rfl | rfl | rfl
  · exact alike_apply_braceAttributes s
  · exact alike_apply_iframeClosing s
  · exact alike_apply_attributeCasing s

/-- The callout tags whose class is merged and starts a line, once the other
rules have run. -/
def lineStartMerges (s : Text) : List CalloutTag :=
  (calloutTagsOf (run ⟨beforeCallouts⟩ s).text).filter
    CalloutTag.mergesLineStart

/-- As many returns are left as classes take a line's start with them. -/
theorem sum_returnsLeft (tags : List CalloutTag) :
    (tags.map CalloutTag.returnsLeft).sum
      = (tags.filter CalloutTag.mergesLineStart).length := by
  induction tags with
  | nil => rfl
  | cons tag tags ih =>
    rw [List.map_cons, List.sum_cons, List.filter_cons, ih]
    unfold CalloutTag.returnsLeft
    split
    · rw [List.length_cons, Nat.add_comm]
    · rw [Nat.zero_add]

theorem text_callouts_of_zero {s : Text}
    (h : (Rule.callouts.apply s).count = 0) :
    (Rule.callouts.apply s).text = s :=
  follows_apply_callouts composes_untouched
    (fun _ _ _ _ _ _ _ _ hzero => absurd hzero (by decide)) h

/-- All rules, whatever the line ends. -/
theorem run_all_crlf (s : Text) :
    (Registry.all.run (crlf s)).tally = (Registry.all.run s).tally
      ∧ ReturnsUpTo (lineStartMerges s).length (Registry.all.run s).text
        (Registry.all.run (crlf s)).text := by
  have hrun (t : Text) : Registry.all.run t
      = (run ⟨beforeCallouts⟩ t).absorb .callouts
        (Rule.callouts.apply (run ⟨beforeCallouts⟩ t).text) := rfl
  have hcallouts := alike_apply_callouts (run ⟨beforeCallouts⟩ s).text
  rw [sum_returnsLeft] at hcallouts
  rw [hrun, hrun, run_beforeCallouts_crlf]
  refine ⟨?_, ?_⟩
  · unfold Output.absorb Output.withReturns
    dsimp only
    rw [hcallouts.count]
    split <;> rfl
  · rw [Output.text_absorb _ _ text_callouts_of_zero,
      Output.text_absorb _ _ text_callouts_of_zero]
    exact hcallouts.text

end Pipeline

-- =========================================================== documents

namespace Transformer

/-- The callout tags of segments whose class is merged and starts a
line. -/
def segmentsMerges (segments : List Segment) : List CalloutTag :=
  segments.flatMap fun s =>
    match s.kind with
    | .prose => Pipeline.lineStartMerges s.text
    | .verbatim => []

/-- The callout tags of a document whose class is merged and starts a
line. -/
def lineStartMerges (source : Text) : List CalloutTag :=
  segmentsMerges (Segment.ofDocument source)

/-- What a segment makes depends on its kind and its text, and not on its
line ends. -/
theorem segmentOutput_crlf {s s' : Segment} (hkind : s'.kind = s.kind)
    (htext : s'.text = crlf s.text) :
    (standard.segmentOutput s').tally = (standard.segmentOutput s).tally
      ∧ ReturnsUpTo (segmentsMerges [s]).length (standard.segmentOutput s).text
        (standard.segmentOutput s').text := by
  have hmerges : segmentsMerges [s]
      = match s.kind with
        | .prose => Pipeline.lineStartMerges s.text
        | .verbatim => [] := List.append_nil _
  rw [hmerges]
  unfold segmentOutput
  rw [hkind, htext]
  cases s.kind with
  | prose => exact Pipeline.run_all_crlf s.text
  | verbatim => exact ⟨rfl, returnsUpTo_crlf s.text⟩

theorem segments_crlf {segments segments' : List Segment}
    (h : Segment.contents segments'
      = (Segment.contents segments).map fun p => (p.1, crlf p.2)) :
    segments'.map (fun s => (standard.segmentOutput s).tally)
        = segments.map (fun s => (standard.segmentOutput s).tally)
      ∧ ReturnsUpTo (segmentsMerges segments).length
        (standard.segmentsText segments)
        (standard.segmentsText segments') := by
  induction segments generalizing segments' with
  | nil =>
    rw [List.map_eq_nil_iff.1 h]
    exact ⟨rfl, returnsUpTo_crlf []⟩
  | cons s segments ih =>
    cases segments' with
    | nil => cases h
    | cons s' segments' =>
      obtain ⟨hhead, hrest⟩ := List.cons.inj h
      obtain ⟨hkind, htext⟩ := Prod.mk.inj hhead
      obtain ⟨htally, hone⟩ := segmentOutput_crlf hkind htext
      obtain ⟨htallies, hmore⟩ := ih hrest
      refine ⟨?_, ?_⟩
      · rw [List.map_cons, List.map_cons, htally, htallies]
      · have hall := hone.append hmore
        rw [← List.length_append] at hall
        unfold segmentsMerges segmentsText at hall ⊢
        rw [List.flatMap_cons, List.flatMap_nil, List.append_nil] at hall
        rw [List.flatMap_cons, List.flatMap_cons, List.flatMap_cons]
        exact hall

/-- A tally is that of the segments, one merged into the other. -/
theorem tally_edit (t : Transformer) (source : Text) :
    (t.edit source).tally
      = ((Segment.ofDocument source).map fun s =>
        (t.segmentOutput s).tally).foldl Tally.merge .empty := by
  unfold edit
  rw [Composes.tally_foldl_absorb, List.foldl_map]

/-- An edit brings in no return. -/
theorem return_not_mem_edit {source : Text} (h : '\r' ∉ source) :
    '\r' ∉ (standard.edit source).text?.getD source := by
  have hR := composes_lacks '\r'
  refine hR.edit standard (fun s _ _ => ?_) h
  exact hR.run_of_rules
    (fun _ hrule => Rule.lacks_apply (by decide) hrule) s.text

/-- A document without returns, and the same with a return before every line
feed. Both are changed or neither, and the same substitutions are counted.
The new texts are the same but for returns: those before the line feeds, and
one for each callout whose class is merged and starts a line. So the one is
the other with a return before every line feed, and has its returns and line
feeds in pairs, exactly if there is no such callout. -/
theorem edit_crlf {source : Text} (h : '\r' ∉ source) :
    ((standard.edit (crlf source)).text?.isSome
        = (standard.edit source).text?.isSome)
      ∧ (standard.edit (crlf source)).tally = (standard.edit source).tally
      ∧ ReturnsUpTo (lineStartMerges source).length
        ((standard.edit source).text?.getD source)
        ((standard.edit (crlf source)).text?.getD (crlf source))
      ∧ ((standard.edit (crlf source)).text?.getD (crlf source)
          = crlf ((standard.edit source).text?.getD source)
        ↔ lineStartMerges source = [])
      ∧ (pairedEnds ((standard.edit (crlf source)).text?.getD (crlf source))
          = true
        ↔ lineStartMerges source = []) := by
  obtain ⟨htallies, htext⟩ := segments_crlf (Segment.ofDocument_crlf source)
  have hold := (follows_edit standard source).text
  have hnew := (follows_edit standard (crlf source)).text
  rw [Segment.joined_segments] at hold hnew
  have hfree := return_not_mem_edit h
  rw [← hold, ← hnew] at htext
  rw [← List.length_eq_zero_iff]
  have htally : (standard.edit (crlf source)).tally
      = (standard.edit source).tally := by
    rw [tally_edit, tally_edit, htallies]
  refine ⟨?_, htally, htext, htext.eq_crlf_iff, htext.pairedEnds_iff hfree⟩
  rw [Bool.eq_iff_iff, isSome_text?_edit_iff, isSome_text?_edit_iff, htally]

/-- A class that is merged, on a line of its own but behind a blank. -/
theorem edit_crlf_indented :
    '\r' ∉ "<Note\n class=\"a\">\nx\n</Note>\n".toList
      ∧ (standard.edit
            (crlf "<Note\n class=\"a\">\nx\n</Note>\n".toList)).text?.getD
          (crlf "<Note\n class=\"a\">\nx\n</Note>\n".toList)
        = crlf "<div class=\"callout callout-note a\"\n>\nx\n</div>\n".toList
      := by
  have hreturn : '\r' ∉ "<Note\n class=\"a\">\nx\n</Note>\n".toList := by
    decide
  have hmerges : lineStartMerges "<Note\n class=\"a\">\nx\n</Note>\n".toList
      = [] := by decide +kernel
  have htext : (standard.edit
        "<Note\n class=\"a\">\nx\n</Note>\n".toList).text?
      = some "<div class=\"callout callout-note a\"\n>\nx\n</div>\n".toList := by
    decide +kernel
  obtain ⟨-, -, -, hcopy, -⟩ := edit_crlf hreturn
  refine ⟨hreturn, (hcopy.2 hmerges).trans ?_⟩
  rw [htext]
  rfl

/-- A class that is merged and starts a line: its line feed goes with it,
and the return in front is left alone. -/
theorem edit_crlf_lineStart :
    '\r' ∉ "<Note\nclass=\"a\">\nx\n</Note>\n".toList
      ∧ (standard.edit "<Note\nclass=\"a\">\nx\n</Note>\n".toList).text?
        = some "<div class=\"callout callout-note a\">\nx\n</div>\n".toList
      ∧ (standard.edit
          (crlf "<Note\nclass=\"a\">\nx\n</Note>\n".toList)).text?
        = some "<div class=\"callout callout-note a\"\r>\r\nx\r\n</div>\r\n".toList
      ∧ "<div class=\"callout callout-note a\"\r>\r\nx\r\n</div>\r\n".toList
        ≠ crlf "<div class=\"callout callout-note a\">\nx\n</div>\n".toList
      ∧ pairedEnds
          "<div class=\"callout callout-note a\"\r>\r\nx\r\n</div>\r\n".toList
        = false := by
  decide +kernel

end Transformer

end ComponentMarkdown
