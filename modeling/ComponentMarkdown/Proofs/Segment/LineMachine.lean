/-
Segments by a machine that reads lines. The machine goes over the lines
of a document once, from left to right, and knows no more than whether it
stands inside a block, and of which fence. Its segments are those of the
document, offsets included (`run_lines`).

# The simulation

`ofLines` looks ahead: it takes a whole block or a whole run of prose and
goes on behind it. The machine takes the same lines one by one.
`segments_foldl_inside` and `foldl_prose` run it over a block and over a
run of prose; behind either it stands outside, and if its latest segment
is prose then the next line opens a fence, so it never prolongs that
segment. With this as the hypothesis, `segments_foldl_ofLines` is an
induction on `ofLines`.
-/
import ComponentMarkdown.Proofs.Segment.Shape

namespace ComponentMarkdown.Segment

-- ========================================================= the machine

/-- Where the machine stands between two lines. -/
inductive LineState where
  | outside
  | inside (fence : Fence)
  deriving DecidableEq, Repr

/-- A machine that reads lines: where it stands, and its segments so far,
the latest first. -/
structure LineMachine where
  state : LineState
  segments : List Segment
  deriving DecidableEq, Repr

namespace LineMachine

/-- Nothing read. -/
def start : LineMachine := ⟨.outside, []⟩

/-- The byte offset behind the lines read. -/
def position (m : LineMachine) : Nat := (m.segments.head?.map stop).getD 0

/-- The segments when a line starts a new one. -/
def begun (kind : Kind) (line : Text) (m : LineMachine) : List Segment :=
  ⟨kind, line, m.position⟩ :: m.segments

/-- The segments when a line joins the latest one. -/
def prolonged (line : Text) (m : LineMachine) : List Segment :=
  m.segments.modifyHead fun s => { s with text := s.text ++ line }

/-- Whether the latest segment is prose. -/
def inProse (m : LineMachine) : Bool := m.segments.head?.any isProse

/-- Reads one line. -/
def step (m : LineMachine) (line : Text) : LineMachine :=
  match m.state with
  | .outside =>
    match Fence.ofLine? line with
    | some fence => ⟨.inside fence, m.begun .verbatim line⟩
    | none =>
      ⟨.outside,
        if m.inProse then m.prolonged line else m.begun .prose line⟩
  | .inside fence =>
    ⟨if fence.closedBy line then .outside else .inside fence,
      m.prolonged line⟩

/-- The segments of some lines, read from the first to the last. -/
def run (lines : List Text) : List Segment :=
  (lines.foldl step start).segments.reverse

-- ====================================================== the simulation

/-- Over a block, the machine adds the block to its latest segment. Only a
block that is closed leaves it outside, but behind one that is not there
is nothing to read. -/
theorem segments_foldl_inside (fence : Fence) (rest : List Text)
    (s : Segment) (segments : List Segment) :
    (rest.foldl step ⟨.inside fence, s :: segments⟩).segments
      = ((fence.block rest).2.foldl step
          ⟨.outside, { s with text := s.text ++ (fence.block rest).1.flatten }
            :: segments⟩).segments := by
  induction rest generalizing s with
  | nil => simp [Fence.block]
  | cons line rest ih =>
    rw [List.foldl_cons]
    cases hc : fence.closedBy line with
    | true => simp [Fence.block, step, prolonged, hc]
    | false =>
      simp only [step, hc, prolonged, List.modifyHead_cons,
        Bool.false_eq_true, if_false, Fence.block]
      rw [ih]
      simp

/-- Over a run of prose, the machine adds the run to its latest
segment. -/
theorem foldl_prose (rest : List Text) {s : Segment}
    (hs : s.kind = .prose) (segments : List Segment) :
    rest.foldl step ⟨.outside, s :: segments⟩
      = (proseRun rest).2.foldl step
          ⟨.outside, { s with text := s.text ++ (proseRun rest).1.flatten }
            :: segments⟩ := by
  induction rest generalizing s with
  | nil => simp [proseRun]
  | cons line rest ih =>
    cases hf : Fence.ofLine? line with
    | some fence => simp [proseRun, hf]
    | none =>
      have hstep : step ⟨.outside, s :: segments⟩ line
          = ⟨.outside, { s with text := s.text ++ line } :: segments⟩ := by
        simp [step, hf, inProse, isProse, hs, prolonged]
      have hrest := ih (s := { s with text := s.text ++ line }) hs
      rw [List.foldl_cons, hstep, hrest]
      simp [proseRun, hf]

/-- A machine outside of blocks, whose latest segment cannot be prolonged
by the next line, reads the segments of the lines. -/
theorem segments_foldl_ofLines (offset : Nat) (lines : List Text)
    (segments : List Segment)
    (hposition : position ⟨.outside, segments⟩ = offset)
    (hnext : inProse ⟨.outside, segments⟩ = true →
      ∀ line ∈ lines.head?, ∃ fence : Fence, fence.Opens line) :
    (lines.foldl step ⟨.outside, segments⟩).segments
      = (ofLines offset lines).reverse ++ segments := by
  fun_induction ofLines offset lines generalizing segments with
  | case1 => rfl
  | case2 offset line rest fence hf run text ih =>
    have hstep : step ⟨.outside, segments⟩ line
        = ⟨.inside fence, ⟨.verbatim, line, offset⟩ :: segments⟩ := by
      simp only [step, hf, begun, hposition]
    rw [List.foldl_cons, hstep, segments_foldl_inside, List.reverse_cons,
      List.append_assoc]
    exact ih (⟨.verbatim, text, offset⟩ :: segments) rfl
      (fun h => by cases h)
  | case3 offset line rest hf run text ih =>
    have hprose : inProse ⟨.outside, segments⟩ = false := by
      cases hp : inProse ⟨.outside, segments⟩ with
      | false => rfl
      | true =>
        obtain ⟨fence, ho⟩ := hnext hp line rfl
        exact absurd ho (Fence.not_opens_of_ofLine?_eq_none hf fence)
    have hstep : step ⟨.outside, segments⟩ line
        = ⟨.outside, ⟨.prose, line, offset⟩ :: segments⟩ := by
      simp only [step, hf, hprose, begun, hposition, Bool.false_eq_true,
        if_false]
    rw [List.foldl_cons, hstep, foldl_prose rest rfl, List.reverse_cons,
      List.append_assoc]
    exact ih (⟨.prose, text, offset⟩ :: segments) rfl
      (fun _ => (shape_proseRun hf rest).2)

end LineMachine

/-- The machine reads the segments of a document off its lines. -/
theorem run_lines (document : Text) :
    LineMachine.run document.lines = ofDocument document := by
  unfold LineMachine.run LineMachine.start
  rw [LineMachine.segments_foldl_ofLines 0 _ [] rfl (fun h => by cases h),
    List.append_nil, List.reverse_reverse]
  rfl

/-- The segments of a document are those of the machine over its lines,
and the machine's two tests on a line are the two forms of fence lines. So
no line of prose opens a fence, no two runs of prose are adjacent, and a
block ends with the first line that closes it or is the last segment. -/
theorem ofDocument_eq_run_lines (document : Text) :
    ofDocument document = LineMachine.run document.lines
      ∧ (∀ (line : Text) (fence : Fence),
        Fence.ofLine? line = some fence ↔ fence.Opens line)
      ∧ (∀ (opening : Text) (fence : Fence), fence.Opens opening →
        ∀ line : Text, fence.closedBy line = true ↔ fence.Closes line)
      ∧ ∀ before s after, ofDocument document = before ++ s :: after →
        (s.kind = .prose →
          (∀ line ∈ s.text.lines, ∀ fence : Fence, ¬ fence.Opens line)
            ∧ ∀ t ∈ after.head?, t.kind = .verbatim)
        ∧ (s.kind = .verbatim →
          ∃ (fence : Fence) (opening : Text) (body : List Text),
            s.text.lines = opening :: body ∧ fence.Opens opening
              ∧ (fence.ClosedByLast body
                ∨ after = [] ∧ ∀ line ∈ body, ¬ fence.Closes line)) := by
  refine ⟨(run_lines document).symm, ?_, ?_, ?_⟩
  · exact fun line fence => Fence.ofLine?_eq_some_iff
  · exact fun opening fence ho line => Fence.closedBy_iff ho
  · exact fun before s after h => ⟨lines_prose h, lines_verbatim h⟩

end ComponentMarkdown.Segment
