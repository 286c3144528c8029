/-
An edit is what its segments make, one by one. The transformer builds no
text before the first change and then copies all of the document up to
that segment; the result is the same as running every segment by itself
and joining what comes out (`follows_edit`).

# The invariant

`Follows` says what a progress owes to the segments it has taken in. Its
text, or the segments themselves while there is none, is what they make;
its tally counts what they count; and it has a text as soon as one of them
changed. The one step that needs the document is the first change: the
copy up to the segment's byte offset is exactly the segments before it,
because a segment starts where they end (`Segment.offset_eq`).
-/
import ComponentMarkdown.Proofs.Pipeline.Counts
import ComponentMarkdown.Proofs.Segment.Partition
import ComponentMarkdown.Transformer

namespace ComponentMarkdown.Transformer

variable (t : Transformer)

-- ======================================================= one segment

/-- What one segment makes by itself: prose runs through the pipeline, a
block stays. -/
def segmentOutput (s : Segment) : Pipeline.Output :=
  match s.kind with
  | .prose => t.pipeline.run s.text
  | .verbatim => ⟨s.text, .empty⟩

/-- A segment that does not change makes its own text and counts
nothing. -/
theorem segmentOutput_of_unchanged {s : Segment}
    (h : (t.segmentOutput s).changed = false) :
    t.segmentOutput s = ⟨s.text, .empty⟩ := by
  unfold segmentOutput at h ⊢
  cases hk : s.kind with
  | verbatim => rfl
  | prose =>
    rw [hk] at h
    exact Pipeline.run_of_changed_eq_false h

/-- A segment changes if it is prose in which some rule counts
something. -/
theorem changed_segmentOutput_iff (s : Segment) :
    (t.segmentOutput s).changed = true
      ↔ s.kind = .prose ∧ ∃ e ∈ t.pipeline.counts s.text, 0 < e.2 := by
  unfold segmentOutput
  cases hk : s.kind with
  | verbatim => simp [Pipeline.Output.changed, Tally.empty, Tally.isEmpty]
  | prose =>
    rw [← Pipeline.changed_run_iff]
    simp

/-- Taking in a segment adds what it makes to the text, and what it counts
to the tally. The first change puts the document up to the segment in
front. -/
theorem text?_absorb (source : Text) (p : Progress) (s : Segment) :
    (p.absorb t source s).text?
      = match p.text? with
        | some text => some (text ++ (t.segmentOutput s).text)
        | none =>
          if (t.segmentOutput s).changed then
            some (Text.takeBytes s.offset source ++ (t.segmentOutput s).text)
          else none := by
  obtain ⟨pieces?, tally⟩ := p
  unfold Progress.absorb segmentOutput
  cases s.kind with
  | verbatim =>
    cases pieces? with
    | none => rfl
    | some pieces => simp [Progress.text?]
  | prose =>
    cases pieces? with
    | none =>
      simp only [Progress.text?, Option.map_none]
      cases (t.pipeline.run s.text).changed with
      | false => rfl
      | true => simp
    | some pieces => simp [Progress.text?]

/-- A segment adds what is counted in it. -/
theorem tally_absorb (source : Text) (p : Progress) (s : Segment) :
    (p.absorb t source s).tally
      = p.tally.merge (t.segmentOutput s).tally := by
  obtain ⟨pieces?, tally⟩ := p
  unfold Progress.absorb segmentOutput
  cases s.kind with
  | verbatim => rfl
  | prose =>
    cases pieces? with
    | none =>
      show (ite _ _ _ : Progress).tally = _
      split <;> rfl
    | some pieces => rfl

-- ==================================================== many segments

/-- What segments make, joined in order. -/
def segmentsText (segments : List Segment) : Text :=
  segments.flatMap fun s => (t.segmentOutput s).text

/-- What segments count under a name. -/
def segmentsCount (segments : List Segment) (name : String) : Nat :=
  segments.foldr (fun s n => (t.segmentOutput s).tally.count name + n) 0

/-- Whether any of the segments changes. -/
def AnyChanges (segments : List Segment) : Prop :=
  ∃ s ∈ segments, (t.segmentOutput s).changed = true

/-- Segments without a change among them make their own texts. -/
theorem segmentsText_of_not_anyChanges {segments : List Segment}
    (h : ¬ t.AnyChanges segments) :
    t.segmentsText segments = Segment.joined segments := by
  induction segments with
  | nil => rfl
  | cons s segments ih =>
    have hs : (t.segmentOutput s).changed = false := by
      rw [← Bool.not_eq_true]
      exact fun hs => h ⟨s, List.mem_cons_self, hs⟩
    have hrest : ¬ t.AnyChanges segments := by
      intro ⟨s', hs', hc⟩
      exact h ⟨s', List.mem_cons_of_mem s hs', hc⟩
    unfold segmentsText Segment.joined at ih ⊢
    rw [List.flatMap_cons, List.flatMap_cons, ih hrest,
      segmentOutput_of_unchanged t hs]

theorem segmentsText_concat (done : List Segment) (s : Segment) :
    t.segmentsText (done ++ [s])
      = t.segmentsText done ++ (t.segmentOutput s).text := by
  simp [segmentsText]

theorem segmentsCount_concat (done : List Segment) (s : Segment)
    (name : String) :
    t.segmentsCount (done ++ [s]) name
      = t.segmentsCount done name
        + (t.segmentOutput s).tally.count name := by
  induction done with
  | nil => exact Nat.add_comm _ 0
  | cons s' done ih =>
    show _ + t.segmentsCount (done ++ [s]) name = _
    rw [ih, ← Nat.add_assoc]
    rfl

theorem anyChanges_concat_iff (done : List Segment) (s : Segment) :
    t.AnyChanges (done ++ [s])
      ↔ t.AnyChanges done ∨ (t.segmentOutput s).changed = true := by
  unfold AnyChanges
  constructor
  · rintro ⟨s', hs', hc⟩
    rcases List.mem_append.1 hs' with hs' | hs'
    · exact Or.inl ⟨s', hs', hc⟩
    · rw [List.mem_singleton.1 hs'] at hc
      exact Or.inr hc
  · rintro (⟨s', hs', hc⟩ | hc)
    · exact ⟨s', List.mem_append_left _ hs', hc⟩
    · exact ⟨s, List.mem_append_right _ List.mem_cons_self, hc⟩

-- ===================================================== the invariant

/-- What a progress owes to the segments taken in so far. -/
structure Follows (done : List Segment) (p : Progress) : Prop where
  /-- Until there is a text, the segments stand for themselves. -/
  text : p.text?.getD (Segment.joined done) = t.segmentsText done
  count : ∀ name, p.tally.count name = t.segmentsCount done name
  changed : p.text?.isSome = true ↔ t.AnyChanges done
  untouched : p.text? = none → p.tally = .empty

/-- At first nothing has been done. -/
theorem follows_start : Follows t [] ⟨none, .empty⟩ where
  text := rfl
  count _ := rfl
  changed := by simp [Progress.text?, AnyChanges]
  untouched _ := rfl

/-- What is counted so far is what the segments so far count. -/
theorem Follows.count_absorb {done : List Segment} {p : Progress}
    (h : Follows t done p) (source : Text) (s : Segment) (name : String) :
    (p.absorb t source s).tally.count name
      = t.segmentsCount (done ++ [s]) name := by
  rw [tally_absorb, Tally.count_merge, segmentsCount_concat, h.count]

/-- A text there already is only prolonged. -/
theorem Follows.absorb_of_some {done : List Segment} {p : Progress}
    (h : Follows t done p) {text : Text} (hp : p.text? = some text)
    (source : Text) (s : Segment) :
    Follows t (done ++ [s]) (p.absorb t source s) := by
  have htext := text?_absorb t source p s
  rw [hp] at htext
  have hdone : t.AnyChanges done := h.changed.1 (by rw [hp]; rfl)
  have hsofar : text = t.segmentsText done := by
    rw [← h.text, hp]
    rfl
  refine ⟨?_, h.count_absorb t source s, ?_, ?_⟩
  · rw [htext, segmentsText_concat, ← hsofar]
    rfl
  · rw [htext, anyChanges_concat_iff]
    exact iff_of_true rfl (Or.inl hdone)
  · intro hnone
    rw [htext] at hnone
    cases hnone

/-- While there is no text of its own, no segment has changed. -/
theorem Follows.not_anyChanges {done : List Segment} {p : Progress}
    (h : Follows t done p) (hp : p.text? = none) : ¬ t.AnyChanges done := by
  rw [← h.changed, hp]
  exact Bool.false_ne_true

/-- The first change copies what the segments before it make. -/
theorem Follows.absorb_of_changed {source : Text} {done rest : List Segment}
    {s : Segment} {p : Progress} (h : Follows t done p)
    (hp : p.text? = none) (hs : (t.segmentOutput s).changed = true)
    (hdoc : Segment.ofDocument source = done ++ s :: rest) :
    Follows t (done ++ [s]) (p.absorb t source s) := by
  have htext := text?_absorb t source p s
  have hdone := h.not_anyChanges t hp
  have hcopy : Text.takeBytes s.offset source = t.segmentsText done := by
    rw [Segment.offset_eq hdoc, segmentsText_of_not_anyChanges t hdone]
    conv => lhs; rw [Segment.document_eq hdoc, List.append_assoc]
    exact Text.takeBytes_append _ _
  simp only [hp, hs, if_true] at htext
  refine ⟨?_, h.count_absorb t source s, ?_, ?_⟩
  · rw [htext, segmentsText_concat, hcopy]
    rfl
  · rw [htext, anyChanges_concat_iff]
    exact iff_of_true rfl (Or.inr hs)
  · intro hnone
    rw [htext] at hnone
    cases hnone

/-- Without a change there is still no text. -/
theorem Follows.absorb_of_unchanged {done : List Segment} {p : Progress}
    (h : Follows t done p) (hp : p.text? = none) {s : Segment}
    (hs : (t.segmentOutput s).changed = false) (source : Text) :
    Follows t (done ++ [s]) (p.absorb t source s) := by
  have htext := text?_absorb t source p s
  simp only [hp, hs, Bool.false_eq_true, if_false] at htext
  have hall : ¬ t.AnyChanges (done ++ [s]) := by
    rw [anyChanges_concat_iff, hs]
    exact not_or.2 ⟨h.not_anyChanges t hp, Bool.false_ne_true⟩
  refine ⟨?_, h.count_absorb t source s, ?_, ?_⟩
  · rw [htext, segmentsText_of_not_anyChanges t hall]
    rfl
  · rw [htext]
    exact iff_of_false Bool.false_ne_true hall
  · intro _
    rw [tally_absorb, h.untouched hp, segmentOutput_of_unchanged t hs]
    rfl

/-- A progress that follows goes on following, as long as the segments
come in the order of the document. -/
theorem Follows.absorb {source : Text} {done rest : List Segment}
    {s : Segment} {p : Progress} (h : Follows t done p)
    (hdoc : Segment.ofDocument source = done ++ s :: rest) :
    Follows t (done ++ [s]) (p.absorb t source s) := by
  cases hp : p.text? with
  | some text => exact h.absorb_of_some t hp source s
  | none =>
    cases hs : (t.segmentOutput s).changed with
    | true => exact h.absorb_of_changed t hp hs hdoc
    | false => exact h.absorb_of_unchanged t hp hs source

/-- Taking in the rest of a document's segments. -/
theorem Follows.foldl {source : Text} {done rest : List Segment}
    {p : Progress} (h : Follows t done p)
    (hdoc : Segment.ofDocument source = done ++ rest) :
    Follows t (done ++ rest) (rest.foldl (Progress.absorb t source) p) := by
  induction rest generalizing done p with
  | nil =>
    rw [List.append_nil]
    exact h
  | cons s rest ih =>
    have hstep := h.absorb t hdoc
    have hdoc' : Segment.ofDocument source = (done ++ [s]) ++ rest := by
      rw [hdoc, List.append_assoc]
      rfl
    have hall := ih hstep hdoc'
    rw [List.append_assoc] at hall
    exact hall

/-- An edit has followed all the segments of the document. -/
theorem follows_edit (source : Text) :
    Follows t (Segment.ofDocument source) (t.edit source) :=
  (follows_start t).foldl t rfl

/-- So its text is theirs. -/
theorem text_edit (source : Text) :
    (t.edit source).text?.getD source
      = t.segmentsText (Segment.ofDocument source) := by
  have h := (follows_edit t source).text
  rw [Segment.joined_segments] at h
  exact h

-- ====================================================== the reference

/-- An edit gives what the segments of the document make one by one, and
counts what they count. It has a text of its own exactly if some rule
counts something in a segment of prose, and otherwise counts nothing. -/
theorem edit_eq_reference (source : Text) :
    (t.edit source).text?.getD source
        = (Segment.ofDocument source).flatMap
          (fun s => (t.segmentOutput s).text)
      ∧ (∀ name, (t.edit source).tally.count name
        = (Segment.ofDocument source).foldr
          (fun s n => (t.segmentOutput s).tally.count name + n) 0)
      ∧ ((t.edit source).text?.isSome = true
        ↔ ∃ s ∈ Segment.ofDocument source, s.kind = .prose
          ∧ ∃ e ∈ t.pipeline.counts s.text, 0 < e.2)
      ∧ ((t.edit source).text? = none
        → (t.edit source).tally = .empty) := by
  have h := follows_edit t source
  refine ⟨?_, h.count, ?_, h.untouched⟩
  · have htext := h.text
    rw [Segment.joined_segments] at htext
    exact htext
  · rw [h.changed]
    simp only [AnyChanges, changed_segmentOutput_iff]

end ComponentMarkdown.Transformer
