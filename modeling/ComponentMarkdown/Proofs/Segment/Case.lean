/-
Segments do not depend on the case of letters. Fences are made of
backticks, tildes and blanks, so lowering the capitals of a document
lowers them in its segments and changes neither their bounds nor their
kinds (`ofDocument_asciiLower`).

Documents that differ in case only are therefore cut alike. Cutting a
document again after its segments were changed in case gives the changed
segments (`ofDocument_of_case`).
-/
import ComponentMarkdown.Proofs.Segment.Fence
import ComponentMarkdown.Proofs.Text.Case

namespace ComponentMarkdown

open Text

-- ============================================================== fences

namespace Fence

theorem isAlpha_marker {fence : Fence} {line : Text}
    (h : ofLine? line = some fence) : fence.marker.isAlpha = false := by
  obtain ⟨hm, -⟩ := ofLine?_eq_some_iff.1 h
  rcases hm with hm | hm <;> rw [hm] <;> decide

theorem unindent?_asciiLower (line : Text) :
    unindent? (asciiLower line) = (unindent? line).map asciiLower := by
  have hspace : ∀ c : Char, (c.toLower == ' ') = (c == ' ') :=
    beq_toLower (by decide)
  unfold unindent?
  rw [takeWhile_asciiLower hspace, dropWhile_asciiLower hspace,
    length_asciiLower]
  split <;> rfl

theorem runLength_asciiLower {marker : Char}
    (hm : marker.isAlpha = false) (t : Text) :
    runLength marker (asciiLower t) = runLength marker t := by
  unfold runLength
  rw [takeWhile_asciiLower (beq_toLower hm), length_asciiLower]

theorem ofUnindented?_asciiLower (t : Text) :
    ofUnindented? (asciiLower t) = ofUnindented? t := by
  cases t with
  | nil => rfl
  | cons c t =>
    by_cases hc : c = '\x60' ∨ c = '~'
    · have halpha : c.isAlpha = false := by
        rcases hc with hc | hc <;> rw [hc] <;> decide
      have hlower : c.toLower = c := (toLower_eq_iff halpha).2 rfl
      have htick (n : Nat) : '\x60' ∈ (asciiLower (c :: t)).drop n
          ↔ '\x60' ∈ (c :: t).drop n := by
        unfold asciiLower
        rw [← List.map_drop]
        exact mem_asciiLower_iff (by decide)
      have hrun := runLength_asciiLower halpha (c :: t)
      have hcons : asciiLower (c :: t) = c :: asciiLower t := by
        show c.toLower :: _ = _
        rw [hlower]
        rfl
      rw [hcons] at htick hrun ⊢
      unfold ofUnindented?
      simp only [htick, hrun]
    · have htick : c.toLower = '\x60' ↔ c = '\x60' :=
        toLower_eq_iff (by decide)
      have htilde : c.toLower = '~' ↔ c = '~' := toLower_eq_iff (by decide)
      show ofUnindented? (c.toLower :: asciiLower t) = _
      unfold ofUnindented?
      simp only [htick, htilde, hc, false_and, if_false]

/-- Lowering neither makes nor breaks an opening fence. -/
theorem ofLine?_asciiLower (line : Text) :
    ofLine? (asciiLower line) = ofLine? line := by
  unfold ofLine?
  rw [unindent?_asciiLower]
  cases unindent? line with
  | none => rfl
  | some t => exact ofUnindented?_asciiLower t

theorem closedBy_asciiLower {fence : Fence}
    (hm : fence.marker.isAlpha = false) (line : Text) :
    fence.closedBy (asciiLower line) = fence.closedBy line := by
  unfold closedBy
  rw [unindent?_asciiLower]
  cases unindent? line with
  | none => rfl
  | some t =>
    have htrim (n : Nat) : (trim ((asciiLower t).drop n)).isEmpty
        = (trim (t.drop n)).isEmpty := by
      unfold asciiLower
      rw [← List.map_drop]
      show (trim (asciiLower (t.drop n))).isEmpty = _
      rw [trim_asciiLower]
      exact List.isEmpty_map
    simp only [Option.map_some, runLength_asciiLower hm, htrim]

theorem block_asciiLower {fence : Fence}
    (hm : fence.marker.isAlpha = false) (lines : List Text) :
    fence.block (lines.map asciiLower)
      = ((fence.block lines).1.map asciiLower,
        (fence.block lines).2.map asciiLower) := by
  induction lines with
  | nil => rfl
  | cons line lines ih =>
    rw [List.map_cons, block, block, closedBy_asciiLower hm, ih]
    cases fence.closedBy line with
    | true => rfl
    | false => rfl

end Fence

-- ============================================================ segments

namespace Segment

/-- A segment in small letters. -/
def lowered (s : Segment) : Segment := { s with text := asciiLower s.text }

theorem proseRun_asciiLower (lines : List Text) :
    proseRun (lines.map asciiLower)
      = ((proseRun lines).1.map asciiLower,
        (proseRun lines).2.map asciiLower) := by
  have hplain : (fun line : Text => (Fence.ofLine? line).isNone) ∘ asciiLower
      = fun line => (Fence.ofLine? line).isNone := by
    funext line
    show (Fence.ofLine? (asciiLower line)).isNone = _
    rw [Fence.ofLine?_asciiLower]
  unfold proseRun
  simp only [List.takeWhile_map, List.dropWhile_map, hplain]

theorem asciiLower_lines (line : Text) (body : List Text) :
    asciiLower line ++ (body.map asciiLower).flatten
      = asciiLower (line ++ body.flatten) := by
  unfold asciiLower
  rw [List.map_append, List.map_flatten]

theorem ofLines_asciiLower (offset : Nat) (lines : List Text) :
    ofLines offset (lines.map asciiLower)
      = (ofLines offset lines).map lowered := by
  fun_induction ofLines offset lines with
  | case1 offset =>
    rw [List.map_nil, ofLines]
    rfl
  | case2 offset line rest fence hf run text ih =>
    rw [List.map_cons, ofLines, Fence.ofLine?_asciiLower, hf]
    simp only [Fence.block_asciiLower (Fence.isAlpha_marker hf)]
    rw [asciiLower_lines, byteLength_asciiLower, ih]
    rfl
  | case3 offset line rest hf run text ih =>
    rw [List.map_cons, ofLines, Fence.ofLine?_asciiLower, hf]
    simp only [proseRun_asciiLower]
    rw [asciiLower_lines, byteLength_asciiLower, ih]
    rfl

/-- Lowering a document lowers its segments. -/
theorem ofDocument_asciiLower (document : Text) :
    ofDocument (asciiLower document) = (ofDocument document).map lowered := by
  unfold ofDocument
  rw [lines_asciiLower, ofLines_asciiLower]

-- ================================================== changing the case

/-- Segments are told by their small letters and the text they make up. -/
theorem eq_of_lowered_eq {edit : Segment → Text}
    (hedit : ∀ s, asciiLower (edit s) = asciiLower s.text)
    {new old : List Segment} (hlower : new.map lowered = old.map lowered)
    (hjoined : joined new = old.flatMap edit) :
    new = old.map fun s => { s with text := edit s } := by
  induction old generalizing new with
  | nil => exact List.map_eq_nil_iff.1 hlower
  | cons s old ih =>
    cases new with
    | nil => cases hlower
    | cons n new =>
      obtain ⟨hs, hrest⟩ := List.cons.inj hlower
      obtain ⟨hkind, htext, hoffset⟩ := Segment.mk.inj hs
      have hlen : n.text.length = (edit s).length := by
        rw [← length_asciiLower, htext, ← hedit, length_asciiLower]
      rw [joined, List.flatMap_cons, List.flatMap_cons] at hjoined
      obtain ⟨hn, hmore⟩ := List.append_inj hjoined hlen
      rw [List.map_cons, ← ih hrest hmore]
      congr 1
      obtain ⟨kind, text, offset⟩ := n
      simp only at hkind hn hoffset
      rw [hkind, hn, hoffset]

/-- A document whose segments are changed in nothing but the case of
letters is cut into the changed segments. -/
theorem ofDocument_of_case (document : Text) {edit : Segment → Text}
    (hedit : ∀ s, asciiLower (edit s) = asciiLower s.text) :
    ofDocument ((ofDocument document).flatMap edit)
      = (ofDocument document).map fun s => { s with text := edit s } := by
  have hlower : asciiLower ((ofDocument document).flatMap edit)
      = asciiLower document := by
    conv => rhs; rw [← joined_segments document]
    unfold joined asciiLower
    rw [List.map_flatMap, List.map_flatMap]
    exact congrArg (List.flatMap · _) (funext hedit)
  have hcut := congrArg ofDocument hlower
  rw [ofDocument_asciiLower, ofDocument_asciiLower] at hcut
  exact eq_of_lowered_eq hedit hcut (joined_segments _)

end Segment

end ComponentMarkdown
