/-
Fenced blocks keep what stands around them apart. A document in which a
complete block follows the end of a line is edited in two halves: what the
block stands behind, as if nothing followed, and what follows, as if nothing
preceded. The block is copied, and neither half depends on it
(`edit_append_block`).

The segments of the whole are those of the halves with the block between
them (`Segment.ofDocument_append_block`). What a segment makes and counts
does not depend on where it stands, so the halves contribute what they do
by themselves; it plays no part which of them changes first.
-/
import ComponentMarkdown.Proofs.Segment.Locality
import ComponentMarkdown.Proofs.Transformer.Reference

namespace ComponentMarkdown.Transformer

variable (t : Transformer)

-- ======================================================== many segments

/-- Segments behind others add their text, -/
theorem segmentsText_append (front back : List Segment) :
    t.segmentsText (front ++ back)
      = t.segmentsText front ++ t.segmentsText back :=
  List.flatMap_append

/-- and what is counted in them, -/
theorem segmentsCount_append (front back : List Segment) (name : String) :
    t.segmentsCount (front ++ back) name
      = t.segmentsCount front name + t.segmentsCount back name := by
  induction front with
  | nil => exact (Nat.zero_add _).symm
  | cons s front ih =>
    show _ + t.segmentsCount (front ++ back) name = _
    rw [ih, ← Nat.add_assoc]
    rfl

/-- and something changes if it does in either. -/
theorem anyChanges_append_iff (front back : List Segment) :
    t.AnyChanges (front ++ back)
      ↔ t.AnyChanges front ∨ t.AnyChanges back := by
  simp [AnyChanges, or_and_right, exists_or]

-- ==================================================== a block in between

/-- A block makes its own text, counts nothing and does not change. -/
theorem segmentsText_cons_verbatim (text : Text) (offset : Nat)
    (back : List Segment) :
    t.segmentsText (⟨.verbatim, text, offset⟩ :: back)
      = text ++ t.segmentsText back := rfl

theorem segmentsCount_cons_verbatim (text : Text) (offset : Nat)
    (back : List Segment) (name : String) :
    t.segmentsCount (⟨.verbatim, text, offset⟩ :: back) name
      = t.segmentsCount back name := Nat.zero_add _

theorem anyChanges_cons_verbatim_iff (text : Text) (offset : Nat)
    (back : List Segment) :
    t.AnyChanges (⟨.verbatim, text, offset⟩ :: back) ↔ t.AnyChanges back := by
  simp [AnyChanges, changed_segmentOutput_iff]

-- ============================================= segments somewhere else

/-- Where segments stand makes no difference to what they make. -/
theorem segmentsText_shifted (n : Nat) (segments : List Segment) :
    t.segmentsText (segments.map (Segment.shifted n))
      = t.segmentsText segments := by
  unfold segmentsText
  rw [List.flatMap_map]
  rfl

/-- Where segments stand is no matter of what is counted in them, -/
theorem segmentsCount_shifted (n : Nat) (segments : List Segment)
    (name : String) :
    t.segmentsCount (segments.map (Segment.shifted n)) name
      = t.segmentsCount segments name := by
  unfold segmentsCount
  rw [List.foldr_map]
  rfl

/-- or of what changes. -/
theorem anyChanges_shifted_iff (n : Nat) (segments : List Segment) :
    t.AnyChanges (segments.map (Segment.shifted n))
      ↔ t.AnyChanges segments := by
  unfold AnyChanges
  simp only [List.mem_map, exists_exists_and_eq_and]
  rfl

-- ======================================================== what an edit is

/-- Behind the end of a line, and outside of blocks, a complete block parts
a document: the text, whether there is a change, and the tally are those of
what stands before it and of what stands behind it. The same parts come
back whatever the block holds. -/
theorem edit_append_block {a : Text}
    (hended : ∀ c ∈ a.getLast?, c = '\n')
    (hclosed : ∀ s ∈ (Segment.ofDocument a).getLast?, ¬ s.Unterminated)
    (f : FencedBlock) (b : Text) :
    (t.edit (a ++ (f.written ++ b))).text?.getD (a ++ (f.written ++ b))
        = (t.edit a).text?.getD a
          ++ (f.written ++ (t.edit b).text?.getD b)
      ∧ (t.edit (a ++ (f.written ++ b))).text?.isSome
        = ((t.edit a).text?.isSome || (t.edit b).text?.isSome)
      ∧ (t.edit (a ++ (f.written ++ b))).tally
        = (t.edit a).tally.merge (t.edit b).tally := by
  have hsegments := Segment.ofDocument_append_block hended hclosed f b
  have ha := follows_edit t a
  have hb := follows_edit t b
  have hwhole := follows_edit t (a ++ (f.written ++ b))
  rw [hsegments] at hwhole
  refine ⟨?_, ?_, Tally.ext_count fun name => ?_⟩
  · rw [text_edit, text_edit, text_edit, hsegments, segmentsText_append,
      segmentsText_cons_verbatim, segmentsText_shifted]
  · rw [Bool.eq_iff_iff, Bool.or_eq_true, hwhole.changed, ha.changed,
      hb.changed, anyChanges_append_iff, anyChanges_cons_verbatim_iff,
      anyChanges_shifted_iff]
  · rw [Tally.count_merge, hwhole.count, ha.count, hb.count,
      segmentsCount_append, segmentsCount_cons_verbatim,
      segmentsCount_shifted]

theorem opens_tildes : (⟨'~', 3⟩ : Fence).Opens "~~~\n".toList :=
  Fence.ofLine?_eq_some_iff.1 (by decide)

/-- A block that holds a callout tag. -/
def noteBlock : FencedBlock where
  fence := ⟨'~', 3⟩
  opening := "~~~\n".toList
  inner := ["<Note>\n".toList]
  closing := "~~~\n".toList
  opens := opens_tildes
  inner_open line hline hcloses := by
    rw [List.mem_singleton.1 hline, ← Fence.closedBy_iff opens_tildes]
      at hcloses
    exact absurd hcloses (by decide)
  closes := (Fence.closedBy_iff opens_tildes).1 (by decide)
  ended := by
    simp only [List.forall_mem_cons, List.cons_append, List.nil_append]
    exact ⟨⟨"~~~".toList, by decide, rfl⟩, ⟨"<Note>".toList, by decide, rfl⟩,
      ⟨"~~~".toList, by decide, rfl⟩, List.forall_mem_nil _⟩

/-- A callout around a block with the tag of another. -/
theorem edit_append_block_note :
    (∀ c ∈ "<Note>\n".toList.getLast?, c = '\n')
      ∧ (∀ s ∈ (Segment.ofDocument "<Note>\n".toList).getLast?,
        ¬ s.Unterminated)
      ∧ (standard.edit
            "<Note>\n~~~\n<Note>\n~~~\n</Note>\n".toList).text?.getD
          "<Note>\n~~~\n<Note>\n~~~\n</Note>\n".toList
        = ("<div class=\"callout callout-note\">\n"
          ++ "~~~\n<Note>\n~~~\n</div>\n").toList
      ∧ (standard.edit
            "<Note>\n~~~\n<Note>\n~~~\n</Note>\n".toList).tally.entries
        = [("callouts", 2)] := by
  have hended : ∀ c ∈ "<Note>\n".toList.getLast?, c = '\n' := by
    intro c hc
    exact (Option.some.inj hc).symm
  have hclosed : ∀ s ∈ (Segment.ofDocument "<Note>\n".toList).getLast?,
      ¬ s.Unterminated := by
    have hprose : ∀ s ∈ (Segment.ofDocument "<Note>\n".toList).getLast?,
        s.kind = .prose := by decide +kernel
    intro s hs ⟨hkind, _⟩
    exact absurd ((hprose s hs).symm.trans hkind) (by decide)
  have hwritten : "<Note>\n~~~\n<Note>\n~~~\n</Note>\n".toList
      = "<Note>\n".toList ++ (noteBlock.written ++ "</Note>\n".toList) := by
    decide +kernel
  obtain ⟨htext, -, htally⟩ :=
    edit_append_block standard hended hclosed noteBlock "</Note>\n".toList
  refine ⟨hended, hclosed, ?_, ?_⟩
  · rw [hwritten, htext]
    decide +kernel
  · rw [hwritten, htally]
    decide +kernel

end ComponentMarkdown.Transformer
