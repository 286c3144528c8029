/-
Fence lines, said without a reader. `Fence.Opens` and `Fence.Closes` spell
out what an opening and a closing line look like: spaces, a run of
markers, and what may follow it. The reader agrees with both
(`ofLine?_eq_some_iff`, `closedBy_iff`).

An opening fence has a run that ends where it is counted, so the line
determines the fence; a closing run may be longer than the opening one,
and nothing but blanks follow it.
-/
import ComponentMarkdown.Segment
import ComponentMarkdown.Proofs.Text.Blank

namespace ComponentMarkdown.Fence

-- ======================================================== the two forms

/-- The line opens this fence: at most three spaces, the run of markers,
and no further marker; behind backticks, no backtick at all. -/
def Opens (fence : Fence) (line : Text) : Prop :=
  (fence.marker = '\x60' ∨ fence.marker = '~') ∧ 3 ≤ fence.length
    ∧ ∃ indent rest, indent ≤ 3
      ∧ line = List.replicate indent ' '
        ++ (List.replicate fence.length fence.marker ++ rest)
      ∧ rest.head? ≠ some fence.marker
      ∧ (fence.marker = '\x60' → '\x60' ∉ rest)

/-- The line closes a block of this fence: at most three spaces, a run of
its marker that is at least as long, and blanks. -/
def Closes (fence : Fence) (line : Text) : Prop :=
  ∃ indent run rest, indent ≤ 3 ∧ fence.length ≤ run
    ∧ line = List.replicate indent ' '
      ++ (List.replicate run fence.marker ++ rest)
    ∧ ∀ c ∈ rest, isBlank c = true

-- ================================================================ runs

/-- A run that nothing prolongs is counted in full. -/
theorem takeWhile_replicate_append {c : Char} {n : Nat} {rest : Text}
    (h : rest.head? ≠ some c) :
    (List.replicate n c ++ rest).takeWhile (· == c) = List.replicate n c := by
  rw [List.takeWhile_append_of_pos (by
    intro d hd
    rw [List.eq_of_mem_replicate hd]
    exact beq_self_eq_true c)]
  cases rest with
  | nil => simp
  | cons d rest =>
    have hd : d ≠ c := fun he => h (by rw [he]; rfl)
    rw [List.takeWhile_cons_of_neg (by simpa using hd), List.append_nil]

theorem dropWhile_replicate_append {c : Char} {n : Nat} {rest : Text}
    (h : rest.head? ≠ some c) :
    (List.replicate n c ++ rest).dropWhile (· == c) = rest := by
  have hsplit := List.takeWhile_append_dropWhile (p := (· == c))
    (l := List.replicate n c ++ rest)
  rw [takeWhile_replicate_append h] at hsplit
  exact List.append_cancel_left hsplit

/-- A text starts with a run of any character, which nothing prolongs. -/
theorem exists_run (c : Char) (t : Text) :
    ∃ rest, t = List.replicate (runLength c t) c ++ rest
      ∧ rest.head? ≠ some c := by
  refine ⟨t.dropWhile (· == c), ?_, ?_⟩
  · have hrun : t.takeWhile (· == c)
        = List.replicate (runLength c t) c := by
      refine List.eq_replicate_of_mem fun d hd => ?_
      exact eq_of_beq (List.all_eq_true.1 List.all_takeWhile d hd)
    rw [← hrun, List.takeWhile_append_dropWhile]
  · intro h
    have := List.head?_dropWhile_not (· == c) t
    rw [h] at this
    simp at this

/-- The length of a run, counted. -/
theorem runLength_replicate_append {c : Char} {n : Nat} {rest : Text}
    (h : rest.head? ≠ some c) :
    runLength c (List.replicate n c ++ rest) = n := by
  rw [runLength, takeWhile_replicate_append h, List.length_replicate]

theorem unindent?_eq_some_iff {line t : Text} :
    unindent? line = some t
      ↔ ∃ indent, indent ≤ 3 ∧ line = List.replicate indent ' ' ++ t
        ∧ t.head? ≠ some ' ' := by
  constructor
  · intro h
    obtain ⟨rest, hline, hrest⟩ := exists_run ' ' line
    generalize hn : runLength ' ' line = n at hline
    subst hline
    unfold unindent? at h
    rw [dropWhile_replicate_append hrest, ← runLength, hn] at h
    split at h
    · rename_i hle
      cases h
      exact ⟨n, hle, rfl, hrest⟩
    · cases h
  · rintro ⟨indent, hle, rfl, ht⟩
    unfold unindent?
    rw [dropWhile_replicate_append ht, ← runLength,
      runLength_replicate_append ht, if_pos hle]

-- ======================================================= opening lines

/-- Markers are no spaces, so a run of them is not indentation. -/
theorem head?_replicate_append_ne {c d : Char} {n : Nat} {rest : Text}
    (hn : 0 < n) (h : c ≠ d) :
    (List.replicate n c ++ rest).head? ≠ some d := by
  cases n with
  | zero => omega
  | succ n => simpa [List.replicate_succ] using h

theorem ofUnindented?_eq_some_iff {fence : Fence} {t : Text} :
    ofUnindented? t = some fence
      ↔ (fence.marker = '\x60' ∨ fence.marker = '~') ∧ 3 ≤ fence.length
        ∧ ∃ rest, t = List.replicate fence.length fence.marker ++ rest
          ∧ rest.head? ≠ some fence.marker
          ∧ (fence.marker = '\x60' → '\x60' ∉ rest) := by
  constructor
  · intro h
    unfold ofUnindented? at h
    split at h
    · cases h
    · rename_i marker tail
      obtain ⟨rest, hrest, hhead⟩ := exists_run marker (marker :: tail)
      simp only at h
      generalize runLength marker (marker :: tail) = n at h hrest
      rw [hrest, List.drop_left' (by simp)] at h
      split at h
      · rename_i hc
        obtain ⟨hm, hlen, hno⟩ := hc
        cases h
        exact ⟨hm, hlen, rest, hrest, hhead,
          fun hm hmem => hno ⟨hm, hmem⟩⟩
      · cases h
  · obtain ⟨marker, n⟩ := fence
    rintro ⟨hm, hlen, rest, rfl, hhead, hno⟩
    obtain ⟨k, rfl⟩ : ∃ k, n = k + 1 := ⟨n - 1, by simp only at hlen; omega⟩
    have hrun := runLength_replicate_append (n := k + 1) hhead
    simp only at hm hlen hhead hno hrun ⊢
    rw [List.replicate_succ, List.cons_append] at hrun ⊢
    unfold ofUnindented?
    simp only [hrun]
    rw [if_pos]
    refine ⟨hm, hlen, ?_⟩
    rintro ⟨rfl, hmem⟩
    refine hno rfl ?_
    rw [← List.cons_append, ← List.replicate_succ,
      List.drop_left' (by simp)] at hmem
    exact hmem

/-- A line is read as opening a fence just when it does. -/
theorem ofLine?_eq_some_iff {fence : Fence} {line : Text} :
    ofLine? line = some fence ↔ fence.Opens line := by
  unfold ofLine? Opens
  rw [Option.bind_eq_some_iff]
  constructor
  · rintro ⟨t, ht, hf⟩
    obtain ⟨indent, hle, rfl, -⟩ := unindent?_eq_some_iff.1 ht
    obtain ⟨hm, hlen, rest, rfl, hrest⟩ := ofUnindented?_eq_some_iff.1 hf
    exact ⟨hm, hlen, indent, rest, hle, rfl, hrest⟩
  · rintro ⟨hm, hlen, indent, rest, hle, rfl, hrest⟩
    refine ⟨_, unindent?_eq_some_iff.2 ⟨indent, hle, rfl, ?_⟩,
      ofUnindented?_eq_some_iff.2 ⟨hm, hlen, rest, rfl, hrest⟩⟩
    refine head?_replicate_append_ne (by omega) ?_
    rcases hm with hm | hm <;> rw [hm] <;> decide

-- ======================================================= closing lines

/-- A line is read as closing the block of an opened fence just when it
does. -/
theorem closedBy_iff {fence : Fence} {opening : Text}
    (ho : fence.Opens opening) {line : Text} :
    fence.closedBy line = true ↔ fence.Closes line := by
  obtain ⟨hm, hlen, -⟩ := ho
  have hspace : fence.marker ≠ ' ' := by
    rcases hm with hm | hm <;> rw [hm] <;> decide
  have hvisible : isBlank fence.marker = false := by
    rcases hm with hm | hm <;> rw [hm] <;> decide
  constructor
  · intro h
    unfold closedBy at h
    split at h
    · cases h
    · rename_i t ht
      obtain ⟨indent, hle, rfl, -⟩ := unindent?_eq_some_iff.1 ht
      obtain ⟨rest, hrest, -⟩ := exists_run fence.marker t
      simp only [Bool.and_eq_true, decide_eq_true_eq,
        List.isEmpty_iff] at h
      generalize runLength fence.marker t = run at h hrest
      subst hrest
      obtain ⟨hrun, hblank⟩ := h
      rw [List.drop_left' (by simp), Text.trim_eq_nil_iff] at hblank
      exact ⟨indent, run, rest, hle, hrun, rfl, hblank⟩
  · rintro ⟨indent, run, rest, hle, hrun, rfl, hblank⟩
    have hhead : rest.head? ≠ some fence.marker := by
      intro hh
      have := hblank _ (List.mem_of_mem_head? hh)
      rw [hvisible] at this
      cases this
    have hmarker : (List.replicate run fence.marker ++ rest).head? ≠ some ' ' :=
      head?_replicate_append_ne (by omega) hspace
    have ht := unindent?_eq_some_iff.2 ⟨indent, hle, rfl, hmarker⟩
    unfold closedBy
    rw [ht]
    simp only [runLength_replicate_append hhead, Bool.and_eq_true,
      decide_eq_true_eq, List.isEmpty_iff]
    rw [List.drop_left' (by simp), Text.trim_eq_nil_iff]
    exact ⟨hrun, hblank⟩

end ComponentMarkdown.Fence
