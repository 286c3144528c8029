/-
Segments: a document cut into prose, which may be edited, and fenced code
blocks, which may not.

A fence is a run of three or more backticks or tildes that starts a line,
after at most three spaces. The block it opens ends with the first later
line that is a run of the same character at least as long, alone on its
line but for blanks; a block that is never closed runs to the end of the
document, fence lines included. Between two blocks lies one maximal run of
prose.

Every segment knows the byte offset at which it starts. Main statement:
the texts of the segments, joined in order, are the document
(`joined_segments`).
-/
import ComponentMarkdown.Text.Basic

namespace ComponentMarkdown

-- ============================================================= fences

/-- An opening code fence: its character and how often it stands there. -/
structure Fence where
  marker : Char
  length : Nat
  deriving DecidableEq, Repr

namespace Fence

/-- A line without its indentation, if that is at most three spaces; a
line indented by more never holds a fence. -/
def unindent? (line : Text) : Option Text :=
  if (line.takeWhile (· == ' ')).length ≤ 3 then
    some (line.dropWhile (· == ' '))
  else none

/-- How many times in a row the text starts with a character. -/
def runLength (marker : Char) (t : Text) : Nat :=
  (t.takeWhile (· == marker)).length

/-- The fence that an unindented line opens. What follows a run of
backticks may not hold another backtick, or it would be inline code. -/
def ofUnindented? (t : Text) : Option Fence :=
  match t with
  | [] => none
  | marker :: _ =>
    let n := runLength marker t
    if (marker = '\x60' ∨ marker = '~') ∧ 3 ≤ n
        ∧ ¬ (marker = '\x60' ∧ '\x60' ∈ t.drop n) then
      some ⟨marker, n⟩
    else none

/-- The fence that a line opens, if any. -/
def ofLine? (line : Text) : Option Fence :=
  (unindent? line).bind ofUnindented?

/-- Whether a line closes the block that the fence opened. -/
def closedBy (fence : Fence) (line : Text) : Bool :=
  match unindent? line with
  | none => false
  | some t =>
    let n := runLength fence.marker t
    fence.length ≤ n && (Text.trim (t.drop n)).isEmpty

/-- The lines of a block behind its opening line, through the closing one,
and the lines after the block. -/
def block (fence : Fence) : List Text → List Text × List Text
  | [] => ([], [])
  | line :: rest =>
    if fence.closedBy line then ([line], rest)
    else
      let (body, after) := block fence rest
      (line :: body, after)

theorem block_append (fence : Fence) (lines : List Text) :
    (fence.block lines).1 ++ (fence.block lines).2 = lines := by
  induction lines with
  | nil => rfl
  | cons line rest ih =>
    by_cases h : fence.closedBy line <;> simp [block, h, ih]

theorem block_after_length (fence : Fence) (lines : List Text) :
    (fence.block lines).2.length ≤ lines.length := by
  have h := congrArg List.length (fence.block_append lines)
  simp only [List.length_append] at h
  omega

end Fence

-- =========================================================== segments

/-- Whether a segment may be edited. -/
inductive Segment.Kind where
  | prose
  | verbatim
  deriving DecidableEq, Repr

/-- A stretch of a document and the byte offset at which it starts. -/
structure Segment where
  kind : Segment.Kind
  text : Text
  offset : Nat
  deriving DecidableEq, Repr

namespace Segment

/-- The byte offset just behind the segment. -/
def stop (s : Segment) : Nat := s.offset + s.text.byteLength

/-- Whether the segment may be edited. -/
def isProse (s : Segment) : Bool := s.kind == .prose

/-- The lines before the first one that opens a fence, and the lines from
there on. -/
def proseRun (lines : List Text) : List Text × List Text :=
  let plain := fun line => (Fence.ofLine? line).isNone
  (lines.takeWhile plain, lines.dropWhile plain)

theorem proseRun_append (lines : List Text) :
    (proseRun lines).1 ++ (proseRun lines).2 = lines :=
  List.takeWhile_append_dropWhile

theorem proseRun_after_length (lines : List Text) :
    (proseRun lines).2.length ≤ lines.length := by
  have h := congrArg List.length (proseRun_append lines)
  simp only [List.length_append] at h
  omega

/-- The segments of a run of lines that starts at a byte offset. -/
def ofLines (offset : Nat) : List Text → List Segment
  | [] => []
  | line :: rest =>
    match Fence.ofLine? line with
    | some fence =>
      let run := fence.block rest
      let text := line ++ run.1.flatten
      ⟨.verbatim, text, offset⟩ :: ofLines (offset + text.byteLength) run.2
    | none =>
      let run := proseRun rest
      let text := line ++ run.1.flatten
      ⟨.prose, text, offset⟩ :: ofLines (offset + text.byteLength) run.2
termination_by lines => lines.length
decreasing_by
  · have := fence.block_after_length rest
    simp only [List.length_cons]
    omega
  · have := proseRun_after_length rest
    simp only [List.length_cons]
    omega

/-- The segments of a document, in order. -/
def ofDocument (document : Text) : List Segment :=
  ofLines 0 document.lines

/-- The document that segments make up. -/
def joined (segments : List Segment) : Text :=
  segments.flatMap Segment.text

theorem joined_ofLines (offset : Nat) (lines : List Text) :
    joined (ofLines offset lines) = lines.flatten := by
  fun_induction ofLines offset lines with
  | case1 => rfl
  | case2 offset line rest fence hf run text ih =>
    rw [joined, List.flatMap_cons, ← joined, ih]
    conv => rhs; rw [List.flatten_cons, ← fence.block_append rest,
      List.flatten_append, ← List.append_assoc]
  | case3 offset line rest hf run text ih =>
    rw [joined, List.flatMap_cons, ← joined, ih]
    conv => rhs; rw [List.flatten_cons, ← proseRun_append rest,
      List.flatten_append, ← List.append_assoc]

/-- Cutting into segments loses nothing. -/
theorem joined_segments (document : Text) :
    joined (ofDocument document) = document := by
  rw [ofDocument, joined_ofLines, Text.lines_flatten]

end Segment

end ComponentMarkdown
