/-
Texts in which no line opens a fence, read from the middle of a line on.
What already stands on the line is carried along, so that a stretch of text
can be replaced wherever it stands: `KeepsFenceFree` says that a
replacement brings no fence to the start of a line, whatever is around it.

A character that is neither a space nor a marker ends both the indentation
of a line and the run that may follow it. From there on the line opens a
fence exactly if what precedes that character opens one, and no backtick
comes behind a run of backticks (`opens_append_cons_iff`). A replacement
that starts with such a character is therefore safe as long as it brings no
new line and loses no backtick (`KeepsFenceFree.cons`), or brings no marker
at all and ends with such a character too (`KeepsFenceFree.markerless`).

A document in which no line opens a fence is a single segment
(`Segment.ofDocument_of_noFence`).
-/
import ComponentMarkdown.Proofs.Segment.Shape
import Mathlib.Data.List.TakeWhile

namespace ComponentMarkdown

-- =================================================== one line, prolonged

namespace Fence

/-- A character that can neither indent a line nor stand in a run of
markers. -/
def endsRun (c : Char) : Bool := c != ' ' && c != '\x60' && c != '~'

variable {fence : Fence} {line rest : Text}

/-- What comes behind an opened fence does not undo it, unless it brings a
backtick behind backticks. -/
theorem Opens.append (h : fence.Opens line)
    (hrest : fence.marker = '\x60' → '\x60' ∉ rest) :
    ∃ longer : Fence, longer.Opens (line ++ rest) := by
  obtain ⟨hm, hlen, indent, info, hindent, rfl, hhead, hinfo⟩ := h
  cases info with
  | cons c info =>
    refine ⟨fence, hm, hlen, indent, c :: info ++ rest, hindent, ?_, hhead,
      fun htick => ?_⟩
    · simp only [List.append_assoc]
    · rw [List.mem_append, not_or]
      exact ⟨hinfo htick, hrest htick⟩
  | nil =>
    obtain ⟨after, hafter, hafterhead⟩ := exists_run fence.marker rest
    generalize runLength fence.marker rest = k at hafter
    subst hafter
    refine ⟨⟨fence.marker, fence.length + k⟩, hm, ?_, indent, after, hindent,
      ?_, hafterhead, fun htick hmem => ?_⟩
    · show 3 ≤ fence.length + k
      omega
    · rw [← List.replicate_append_replicate]
      simp only [List.append_assoc, List.append_nil]
    · exact hrest htick (List.mem_append_right _ hmem)

/-- A line opens a fence before a character that ends a run, or not at
all. -/
theorem Opens.of_append_cons {c : Char} (hc : endsRun c = true)
    (h : fence.Opens (line ++ c :: rest)) :
    fence.Opens line ∧ (fence.marker = '\x60' → '\x60' ∉ rest) := by
  obtain ⟨hm, hlen, indent, info, hindent, heq, hhead, hinfo⟩ := h
  have hnot : c ∉ List.replicate indent ' '
      ++ List.replicate fence.length fence.marker := by
    intro hmem
    rcases List.mem_append.1 hmem with hmem | hmem
    · rw [List.eq_of_mem_replicate hmem] at hc
      cases hc
    · rw [List.eq_of_mem_replicate hmem] at hc
      rcases hm with hm | hm <;> rw [hm] at hc <;> cases hc
  rw [← List.append_assoc] at heq
  obtain ⟨more, rfl, hinfo'⟩ : ∃ more,
      line = List.replicate indent ' '
        ++ List.replicate fence.length fence.marker ++ more
      ∧ info = more ++ c :: rest := by
    rcases List.append_eq_append_iff.1 heq with ⟨q, hq, hrest⟩ | ⟨q, hq, hrest⟩
    · cases q with
      | nil =>
        rw [List.append_nil] at hq
        exact ⟨[], by rw [hq, List.append_nil], hrest.symm⟩
      | cons d q =>
        rw [List.cons_append, List.cons.injEq] at hrest
        rw [hq, hrest.1] at hnot
        exact absurd (List.mem_append_right _ List.mem_cons_self) hnot
    · exact ⟨q, hq, hrest⟩
  rw [hinfo'] at hhead hinfo
  refine ⟨⟨hm, hlen, indent, more, hindent, List.append_assoc _ _ _, ?_, ?_⟩,
    ?_⟩
  · cases more with
    | nil => simp
    | cons d more => exact hhead
  · exact fun htick hmem => hinfo htick (List.mem_append_left _ hmem)
  · exact fun htick hmem => hinfo htick
      (List.mem_append_right _ (List.mem_cons_of_mem c hmem))

theorem opens_append_cons_iff {c : Char} (hc : endsRun c = true) :
    (∃ fence : Fence, fence.Opens (line ++ c :: rest))
      ↔ ∃ fence : Fence, fence.Opens line
        ∧ (fence.marker = '\x60' → '\x60' ∉ rest) := by
  constructor
  · exact fun ⟨fence, h⟩ => ⟨fence, h.of_append_cons hc⟩
  · intro ⟨fence, h, hrest⟩
    refine h.append fun htick hmem => ?_
    rcases List.mem_cons.1 hmem with rfl | hmem
    · cases hc
    · exact hrest htick hmem

/-- A line without a marker opens nothing. -/
theorem not_opens_of_not_mem (htick : '\x60' ∉ line) (htilde : '~' ∉ line)
    (fence : Fence) : ¬ fence.Opens line := by
  rintro ⟨hm, hlen, indent, info, -, rfl, -⟩
  have hmem : fence.marker ∈ List.replicate indent ' '
      ++ (List.replicate fence.length fence.marker ++ info) := by
    refine List.mem_append_right _ (List.mem_append_left _ ?_)
    exact List.mem_replicate.2 ⟨by omega, rfl⟩
  rcases hm with hm | hm
  · exact htick (by rwa [hm] at hmem ⊢)
  · exact htilde (by rwa [hm] at hmem ⊢)

end Fence

-- =========================================================== whole texts

/-- Whether no line of a text opens a fence, where `line` is what stands
before it on the first of its lines. -/
def NoFence (line : Text) : Text → Prop
  | [] => ∀ fence : Fence, ¬ fence.Opens line
  | c :: rest =>
    if c = '\n' then (∀ fence : Fence, ¬ fence.Opens line) ∧ NoFence [] rest
    else NoFence (line ++ [c]) rest

namespace NoFence

variable {line t after : Text}

/-- Reading on from the middle of a line is the same as looking at every
line. -/
theorem iff_lines (h : '\n' ∉ line) :
    NoFence line t
      ↔ ∀ l ∈ Text.lines (line ++ t), ∀ fence : Fence, ¬ fence.Opens l := by
  induction t generalizing line with
  | nil =>
    rw [NoFence, List.append_nil]
    cases line with
    | nil =>
      exact iff_of_true (Fence.not_opens_of_not_mem (by simp) (by simp))
        (by simp [Text.lines])
    | cons c line => simp [Text.lines_unended (by simp) h]
  | cons c t ih =>
    by_cases hc : c = '\n'
    · have hended : (∀ fence : Fence, ¬ fence.Opens (line ++ ['\n']))
          ↔ ∀ fence : Fence, ¬ fence.Opens line := by
        have hiff : (∃ fence : Fence, fence.Opens (line ++ ['\n']))
            ↔ ∃ fence : Fence, fence.Opens line
              ∧ (fence.marker = '\x60' → '\x60' ∉ ([] : Text)) :=
          Fence.opens_append_cons_iff (by decide)
        simpa using not_congr hiff
      rw [NoFence, if_pos hc, hc, Text.lines_ended h, List.forall_mem_cons,
        hended, ih (by simp), List.nil_append]
    · have hline : '\n' ∉ line ++ [c] := by
        rw [List.mem_append, not_or, List.mem_singleton]
        exact ⟨h, Ne.symm hc⟩
      rw [NoFence, if_neg hc, ih hline, List.append_assoc,
        List.singleton_append]

/-- What is on the rest of the line. -/
def firstLine (t : Text) : Text := t.takeWhile (· != '\n')

/-- What is behind the rest of the line. -/
def afterLine (t : Text) : Text := (t.dropWhile (· != '\n')).drop 1

theorem firstLine_append_of_not_mem {a : Text} (h : '\n' ∉ a) (b : Text) :
    firstLine (a ++ b) = a ++ firstLine b := by
  unfold firstLine
  refine List.takeWhile_append_of_pos fun c hc => ?_
  have hne : c ≠ '\n' := by
    rintro rfl
    exact h hc
  simpa using hne

theorem firstLine_append_of_mem {a : Text} (h : '\n' ∈ a) (b : Text) :
    firstLine (a ++ b) = firstLine a := by
  unfold firstLine
  induction a with
  | nil => cases h
  | cons c a ih =>
    by_cases hc : c = '\n'
    · simp [hc]
    · have hmem : '\n' ∈ a := (List.mem_cons.1 h).resolve_left (Ne.symm hc)
      rw [List.cons_append, List.takeWhile_cons_of_pos (by simpa using hc),
        List.takeWhile_cons_of_pos (by simpa using hc), ih hmem]

theorem afterLine_append_of_not_mem {a : Text} (h : '\n' ∉ a) (b : Text) :
    afterLine (a ++ b) = afterLine b := by
  unfold afterLine
  rw [List.dropWhile_append_of_pos fun c hc => ?_]
  have hne : c ≠ '\n' := by
    rintro rfl
    exact h hc
  simpa using hne

theorem iff_firstLine :
    NoFence line t
      ↔ (∀ fence : Fence, ¬ fence.Opens (line ++ firstLine t))
        ∧ NoFence [] (afterLine t) := by
  induction t generalizing line with
  | nil =>
    have hnil : NoFence [] [] :=
      Fence.not_opens_of_not_mem (by simp) (by simp)
    show _ ↔ _ ∧ NoFence [] []
    rw [and_iff_left hnil]
    show _ ↔ ∀ fence : Fence, ¬ fence.Opens (line ++ [])
    rw [List.append_nil]
    rfl
  | cons c t ih =>
    by_cases hc : c = '\n'
    · rw [NoFence, if_pos hc, hc]
      simp [firstLine, afterLine]
    · have hnot : '\n' ∉ [c] := by simpa using Ne.symm hc
      have hfirst := firstLine_append_of_not_mem hnot t
      have hafter := afterLine_append_of_not_mem hnot t
      rw [List.singleton_append] at hfirst hafter
      rw [NoFence, if_neg hc, ih, hfirst, hafter, List.append_assoc]

/-- What is behind the line that some text ends on has no fence either. -/
theorem of_append {a : Text} (h : NoFence line (a ++ after)) :
    NoFence [] (afterLine after) := by
  induction a generalizing line with
  | nil => exact (iff_firstLine.1 h).2
  | cons c a ih =>
    rw [List.cons_append, NoFence] at h
    split at h
    · exact ih h.2
    · exact ih h

/-- Behind the same text, the rest may be exchanged. -/
theorem append_mono {b b' : Text}
    (hb : ∀ line, NoFence line b → NoFence line b') (a : Text) :
    NoFence line (a ++ b) → NoFence line (a ++ b') := by
  induction a generalizing line with
  | nil => exact hb line
  | cons c a ih =>
    intro h
    rw [List.cons_append, NoFence] at h ⊢
    split at h
    · rename_i hc
      rw [if_pos hc]
      exact ⟨h.1, ih h.2⟩
    · rename_i hc
      rw [if_neg hc]
      exact ih h

/-- Lines without a marker open no fence, up to one that goes on behind a
character that ends a run. -/
theorem of_markerless {w : Text} {d : Char} (hd : Fence.endsRun d = true)
    (hdline : d ≠ '\n') (hline : '\x60' ∉ line ∧ '~' ∉ line)
    (hw : '\x60' ∉ w ∧ '~' ∉ w) (h : NoFence [] (afterLine after)) :
    NoFence line (w ++ d :: after) := by
  induction w generalizing line with
  | nil =>
    have hnot : '\n' ∉ [d] := by simpa using Ne.symm hdline
    have hfirst := firstLine_append_of_not_mem hnot after
    have hafter := afterLine_append_of_not_mem hnot after
    rw [List.singleton_append] at hfirst hafter
    rw [List.nil_append, iff_firstLine, hfirst, hafter]
    refine ⟨fun fence ho => ?_, h⟩
    rw [List.singleton_append] at ho
    exact Fence.not_opens_of_not_mem hline.1 hline.2 fence
      (ho.of_append_cons hd).1
  | cons c w ih =>
    simp only [List.mem_cons, not_or] at hw
    obtain ⟨⟨hctick, htick⟩, hctilde, htilde⟩ := hw
    rw [List.cons_append, NoFence]
    split
    · exact ⟨Fence.not_opens_of_not_mem hline.1 hline.2,
        ih (by simp) ⟨htick, htilde⟩⟩
    · refine ih ?_ ⟨htick, htilde⟩
      simp [hline, hctick, hctilde]

end NoFence

/-- A text in which no line opens a fence is prose from end to end. -/
theorem Segment.ofDocument_of_noFence {t : Text} (hne : t ≠ [])
    (h : NoFence [] t) : ofDocument t = [⟨.prose, t, 0⟩] := by
  have hline : ∀ line ∈ t.lines, Fence.ofLine? line = none := by
    intro line hmem
    rw [Option.eq_none_iff_forall_ne_some]
    intro fence hfence
    exact (NoFence.iff_lines List.not_mem_nil).1 h line hmem fence
      (Fence.ofLine?_eq_some_iff.1 hfence)
  have hflatten := Text.lines_flatten t
  unfold ofDocument
  cases hlines : t.lines with
  | nil =>
    rw [hlines] at hflatten
    exact absurd hflatten.symm hne
  | cons line rest =>
    rw [hlines] at hline hflatten
    obtain ⟨hfirst, hrest⟩ := List.forall_mem_cons.1 hline
    have hplain : ∀ line ∈ rest, (Fence.ofLine? line).isNone = true := by
      intro line hmem
      rw [hrest line hmem]
      rfl
    have hrun : proseRun rest = (rest, []) := by
      unfold proseRun
      dsimp only
      rw [List.takeWhile_eq_self_iff.2 hplain,
        List.dropWhile_eq_nil_iff.2 hplain]
    rw [ofLines, hfirst]
    dsimp only
    rw [hrun, ofLines]
    exact congrArg (fun t => [Segment.mk .prose t 0]) hflatten

-- ========================================================= replacements

/-- Putting one text for another brings no fence to the start of a line,
whatever is around. -/
def KeepsFenceFree (old new : Text) : Prop :=
  ∀ line after, NoFence line (old ++ after) → NoFence line (new ++ after)

namespace KeepsFenceFree

variable {a a' b b' c : Text}

theorem refl (a : Text) : KeepsFenceFree a a := fun _ _ h => h

theorem append (ha : KeepsFenceFree a a') (hb : KeepsFenceFree b b') :
    KeepsFenceFree (a ++ b) (a' ++ b') := by
  intro line after h
  rw [List.append_assoc] at h ⊢
  exact NoFence.append_mono (fun line => hb line after) a'
    (ha line (b ++ after) h)

theorem trans (hab : KeepsFenceFree a b) (hbc : KeepsFenceFree b c) :
    KeepsFenceFree a c :=
  fun line after h => hbc line after (hab line after h)

/-- A line that is open to a fence stays so over text without a
backtick. -/
theorem opens_firstLine {fence : Fence} {line u after : Text}
    (ho : fence.Opens line)
    (hu : fence.marker = '\x60' → '\x60' ∉ u ∧ '\x60' ∉ NoFence.firstLine after) :
    ∃ longer : Fence, longer.Opens (line ++ NoFence.firstLine (u ++ after)) := by
  refine ho.append fun htick hmem => ?_
  obtain ⟨hu, hafter⟩ := hu htick
  by_cases hline : '\n' ∈ u
  · rw [NoFence.firstLine_append_of_mem hline] at hmem
    exact hu ((List.takeWhile_sublist _).mem hmem)
  · rw [NoFence.firstLine_append_of_not_mem hline, List.mem_append] at hmem
    exact hmem.elim hu hafter

/-- A replacement is safe if it starts with a character that ends a run,
brings no new line and loses no backtick. -/
theorem cons {u w : Text} {d : Char} (hd : Fence.endsRun d = true)
    (hline : '\n' ∉ d :: w) (htick : '\x60' ∈ u → '\x60' ∈ w) :
    KeepsFenceFree u (d :: w) := by
  intro line after h
  have hafter := NoFence.of_append h
  rw [NoFence.iff_firstLine] at h ⊢
  rw [NoFence.firstLine_append_of_not_mem hline,
    NoFence.afterLine_append_of_not_mem hline]
  refine ⟨fun fence ho => ?_, hafter⟩
  obtain ⟨ho, hmarker⟩ := Fence.Opens.of_append_cons hd ho
  have hopen : fence.marker = '\x60'
      → '\x60' ∉ u ∧ '\x60' ∉ NoFence.firstLine after := by
    intro hm
    have hnot : ¬ '\x60' ∈ w ++ NoFence.firstLine after := hmarker hm
    rw [List.mem_append, not_or] at hnot
    exact ⟨mt htick hnot.1, hnot.2⟩
  obtain ⟨longer, hlonger⟩ := opens_firstLine ho hopen
  exact h.1 longer hlonger

/-- A replacement is safe if it starts and ends with characters that end a
run, holds no marker, and brings a new line only where there was one. -/
theorem markerless {u w : Text} {d e : Char} (hd : Fence.endsRun d = true)
    (he : Fence.endsRun e = true) (hdline : d ≠ '\n') (heline : e ≠ '\n')
    (hu : '\x60' ∉ u) (hw : '\x60' ∉ w ∧ '~' ∉ w)
    (hline : '\n' ∈ w → '\n' ∈ u) : KeepsFenceFree u (d :: (w ++ [e])) := by
  by_cases hnew : '\n' ∈ w
  · intro line after h
    have hafter := NoFence.of_append h
    have hfirst : ∀ fence : Fence, ¬ fence.Opens line := by
      intro fence ho
      rw [NoFence.iff_firstLine, NoFence.firstLine_append_of_mem (hline hnew)]
        at h
      have hnot : '\x60' ∉ NoFence.firstLine u :=
        fun hmem => hu ((List.takeWhile_sublist _).mem hmem)
      obtain ⟨longer, hlonger⟩ := ho.append fun _ => hnot
      exact h.1 longer hlonger
    obtain ⟨w₁, w₂, rfl, hw₁⟩ := List.eq_append_cons_of_mem hnew
    simp only [List.mem_append, List.mem_cons, not_or] at hw
    have hnot : '\n' ∉ d :: w₁ := by simp [Ne.symm hdline, hw₁]
    have hsplit : d :: (w₁ ++ '\n' :: w₂ ++ [e]) ++ after
        = (d :: w₁) ++ '\n' :: (w₂ ++ e :: after) := by simp
    rw [hsplit, NoFence.iff_firstLine,
      NoFence.firstLine_append_of_not_mem hnot,
      NoFence.afterLine_append_of_not_mem hnot]
    refine ⟨fun fence ho => ?_, ?_⟩
    · exact hfirst fence (ho.of_append_cons hd).1
    · exact NoFence.of_markerless he heline (by simp) ⟨hw.1.2.2, hw.2.2.2⟩
        hafter
  · refine cons hd ?_ fun hmem => absurd hmem hu
    simp [Ne.symm hdline, Ne.symm heline, hnew]

end KeepsFenceFree

end ComponentMarkdown
