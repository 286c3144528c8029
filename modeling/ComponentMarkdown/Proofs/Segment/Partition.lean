/-
The segments of a document partition it. A reader that remembers nothing
but a byte offset, and cuts the document into lines afresh from there for
every segment it asks for, comes to an end and finds the segments of the
document (`walk_ofDocument`); they lie one behind the other from its first
byte to its last (`tiles_ofDocument`), each is the slice of its bytes
between two character boundaries, and none is empty.

Whether a segment is a block or prose matters to none of this, so each
property is one case of `ofLines_induction`.
-/
import ComponentMarkdown.Proofs.Segment.Shape
import ComponentMarkdown.Proofs.Text.Bytes
import ComponentMarkdown.Proofs.Text.Lines

namespace ComponentMarkdown.Segment

-- ============================================================= tilings

/-- Segments that lie one behind the other, from one byte offset to
another. -/
def Tiles (start : Nat) : List Segment → Nat → Prop
  | [], stop => start = stop
  | s :: rest, stop => s.offset = start ∧ Tiles s.stop rest stop

/-- A tiling can be cut between any two segments. -/
theorem Tiles.append {start stop : Nat} {before after : List Segment}
    (h : Tiles start (before ++ after) stop) :
    Tiles (start + (joined before).byteLength) after stop := by
  induction before generalizing start with
  | nil => exact h
  | cons s before ih =>
    obtain ⟨hs, hrest⟩ := h
    have := ih hrest
    rw [joined, List.flatMap_cons, ← joined, Text.byteLength_append,
      ← Nat.add_assoc, ← hs]
    exact this

theorem tiles_ofLines (offset : Nat) (lines : List Text) :
    Tiles offset (ofLines offset lines)
      (offset + Text.byteLength lines.flatten) := by
  induction offset, lines using ofLines_induction with
  | nil offset =>
    rw [ofLines]
    rfl
  | cons offset kind line body after heq hshape ih =>
    rw [heq]
    refine ⟨rfl, ?_⟩
    rw [List.flatten_cons, List.flatten_append, ← List.append_assoc,
      Text.byteLength_append (line ++ body.flatten), ← Nat.add_assoc]
    exact ih

/-- The segments of a document tile it. -/
theorem tiles_ofDocument (document : Text) :
    Tiles 0 (ofDocument document) document.byteLength := by
  have h := tiles_ofLines 0 document.lines
  rw [Text.lines_flatten, Nat.zero_add] at h
  exact h

-- ================================================ segments in place

/-- Lines that hold something make segments that do. -/
theorem text_ne_nil_of_mem_ofLines {offset : Nat} {lines : List Text}
    (hlines : ∀ line ∈ lines, line ≠ []) {s : Segment}
    (h : s ∈ ofLines offset lines) : s.text ≠ [] := by
  induction offset, lines using ofLines_induction with
  | nil offset => simp [ofLines] at h
  | cons offset kind line body after heq hshape ih =>
    rw [heq, List.mem_cons] at h
    obtain ⟨hline, hmore⟩ := List.forall_mem_cons.1 hlines
    rcases h with rfl | h
    · exact fun he => hline (List.append_eq_nil_iff.1 he).1
    · exact ih (fun l hl => hmore l (List.mem_append_right _ hl)) h

/-- No segment of a document is empty. -/
theorem text_ne_nil {document : Text} {s : Segment}
    (h : s ∈ ofDocument document) : s.text ≠ [] :=
  text_ne_nil_of_mem_ofLines (fun _ => Text.ne_nil_of_mem_lines) h

/-- A segment starts behind everything before it. -/
theorem offset_eq {document : Text} {before after : List Segment}
    {s : Segment} (h : ofDocument document = before ++ s :: after) :
    s.offset = (joined before).byteLength := by
  have ht := tiles_ofDocument document
  rw [h] at ht
  obtain ⟨hs, -⟩ := ht.append
  rw [hs, Nat.zero_add]

/-- A document is what precedes a segment, its text, and what follows. -/
theorem document_eq {document : Text} {before after : List Segment}
    {s : Segment} (h : ofDocument document = before ++ s :: after) :
    document = joined before ++ s.text ++ joined after := by
  have hj := joined_segments document
  rw [h] at hj
  simpa [joined] using hj.symm

/-- A segment is bounded by character boundaries, and its text is the
slice of the document's bytes between them. -/
theorem slice_of_mem {document : Text} {s : Segment}
    (h : s ∈ ofDocument document) :
    document.IsBoundary s.offset ∧ document.IsBoundary s.stop
      ∧ document.utf8Encode.extract s.offset s.stop
        = s.text.utf8Encode := by
  obtain ⟨before, after, hsplit⟩ := List.append_of_mem h
  have hoffset := offset_eq hsplit
  have hdoc := document_eq hsplit
  have hstop : s.stop = (joined before ++ s.text).byteLength := by
    rw [Text.byteLength_append, ← hoffset]
    rfl
  refine ⟨?_, ?_, ?_⟩
  · rw [hdoc, hoffset, List.append_assoc]
    exact Text.isBoundary_byteLength _ _
  · rw [hdoc, hstop]
    exact Text.isBoundary_byteLength _ _
  · rw [hdoc, hstop, hoffset, Text.byteLength_append]
    exact Text.extract_utf8Encode _ _ _

-- ======================================================= the iteration

/-- The segment that some lines start with. -/
def first? (offset : Nat) : List Text → Option Segment
  | [] => none
  | line :: rest =>
    match Fence.ofLine? line with
    | some fence =>
      some ⟨.verbatim, line ++ (fence.block rest).1.flatten, offset⟩
    | none => some ⟨.prose, line ++ (proseRun rest).1.flatten, offset⟩

/-- The segment that starts at a byte offset, read off the document from
there on. -/
def next? (document : Text) (offset : Nat) : Option Segment :=
  first? offset (document.dropBytes offset).lines

/-- Asking for a segment, and then for the one that starts where it stops,
until there is none: the reader ends with these segments. -/
inductive Walk (document : Text) : Nat → List Segment → Prop
  | done {offset : Nat} (h : next? document offset = none) :
      Walk document offset []
  | step {offset : Nat} {s : Segment} {rest : List Segment}
      (h : next? document offset = some s)
      (hrest : Walk document s.stop rest) :
      Walk document offset (s :: rest)

theorem first?_eq_head? (offset : Nat) (lines : List Text) :
    first? offset lines = (ofLines offset lines).head? := by
  cases lines with
  | nil =>
    rw [ofLines]
    rfl
  | cons line rest =>
    rw [first?, ofLines]
    cases Fence.ofLine? line <;> rfl

/-- Behind any of its lines, the rest of a document is cut into the lines
that are left, so the reader finds the segment that these start with. -/
theorem next?_eq_head? {document before : Text} {lines : List Text}
    (hcut : Text.LineCut lines) (hdoc : document = before ++ lines.flatten) :
    next? document before.byteLength
      = (ofLines before.byteLength lines).head? := by
  unfold next?
  rw [hdoc, Text.dropBytes_append, Text.lines_flatten_of_lineCut hcut,
    first?_eq_head?]

/-- From any of its lines on, a document is read as those lines are. -/
theorem walk_ofLines {document before : Text} {lines : List Text}
    (hcut : Text.LineCut lines) (hdoc : document = before ++ lines.flatten) :
    Walk document before.byteLength (ofLines before.byteLength lines) := by
  have hnext := next?_eq_head? hcut hdoc
  generalize ho : before.byteLength = offset at hnext ⊢
  induction offset, lines using ofLines_induction generalizing before with
  | nil offset =>
    rw [ofLines] at hnext ⊢
    exact .done hnext
  | cons offset kind line body after heq hshape ih =>
    rw [heq] at hnext ⊢
    have hcut' : Text.LineCut after := hcut.tail.right
    have hdoc' : document
        = (before ++ (line ++ body.flatten)) ++ after.flatten := by
      rw [hdoc]
      simp
    have ho' : (before ++ (line ++ body.flatten)).byteLength
        = offset + (line ++ body.flatten).byteLength := by
      rw [Text.byteLength_append before, ho]
    have hnext' := next?_eq_head? hcut' hdoc'
    rw [ho'] at hnext'
    exact .step hnext (ih hcut' hdoc' ho' hnext')

/-- The reader ends, and has found the segments of the document. -/
theorem walk_ofDocument (document : Text) :
    Walk document 0 (ofDocument document) :=
  walk_ofLines (Text.lineCut_lines document)
    (show document = [] ++ _ from (Text.lines_flatten document).symm)

-- ======================================================= the partition

/-- Reading a document segment by segment ends, and the segments found
are a lossless partition of its bytes: they follow each other from its
first byte to its last, none is empty, each is bounded by character
boundaries and is the slice of the document there, and joined they are the
document. -/
theorem partition_ofDocument (document : Text) :
    Walk document 0 (ofDocument document)
      ∧ Tiles 0 (ofDocument document) document.utf8Encode.size
      ∧ (∀ s ∈ ofDocument document, s.text ≠ []
        ∧ document.IsBoundary s.offset ∧ document.IsBoundary s.stop
        ∧ document.utf8Encode.extract s.offset s.stop = s.text.utf8Encode)
      ∧ joined (ofDocument document) = document := by
  refine ⟨walk_ofDocument document, ?_, ?_, joined_segments document⟩
  · rw [Text.size_utf8Encode]
    exact tiles_ofDocument document
  · exact fun s hs => ⟨text_ne_nil hs, slice_of_mem hs⟩

end ComponentMarkdown.Segment
