/-
Splicing by copying a text from the left. There are two ways to do it. One
goes on from where the last replacement was made, so a match that stays is
copied with what lies between (`editMatches`). The other goes on from where
the last match ended, and writes a match that stays once more
(`replaceMatches`). Both look at the original text alone, so a replacement
is never searched.

For whatever matches and answers, both come to what a splice comes to that
is put together piece by piece (`splicing`). What a copy keeps to is that
what it has written, what it has yet to read and the answers to come make up
the result (`Copying.CompletedBy`).
-/
import ComponentMarkdown.Markup.Opening
import ComponentMarkdown.Proofs.Splice.Matches

namespace ComponentMarkdown

variable {α σ : Type}

-- ================================================= copying from the left

/-- How far a text is copied: what is written, up to where the text is read,
and what is counted. -/
structure Copying where
  written : Text
  read : Nat
  count : Nat

namespace Copying

/-- Nothing copied yet. -/
def start : Copying := ⟨[], 0, 0⟩

/-- Copies up to a match and writes a text in its place. -/
def put (s : Text) (m : Match α) (t : Text) (n : Nat) (c : Copying) :
    Copying :=
  ⟨c.written ++ stretch s c.read m.start ++ t, m.stop, c.count + n⟩

/-- Copies the rest. If nothing is counted, the text is returned as it
is. -/
def finish (s : Text) (c : Copying) : Edited :=
  if c.count = 0 then .unchanged s else ⟨c.written ++ s.drop c.read, c.count⟩

/-- Takes a match that was answered. One that stays is not copied yet. -/
def edit (s : Text) (m : Match α) (c : Copying) : Option Edited → Copying
  | none => c
  | some new => if new.count = 0 then c else c.put s m new.text new.count

/-- Takes a match that is replaced or stays. One that stays is copied. -/
def replace (s : Text) (m : Match α) (c : Copying) : Option Text → Copying
  | none => c.put s m m.hit.taken 0
  | some t => c.put s m t 1

end Copying

/-- Edits matches one after the other. -/
def editFrom (s : Text) (edit : Match α → σ → Option Edited × σ) :
    List (Match α) → σ → Copying → Copying
  | [], _, c => c
  | m :: ms, st, c =>
    editFrom s edit ms (edit m st).2 (c.edit s m (edit m st).1)

/-- Edits the matches of a text, each for as much as is counted for it. -/
def editMatches (s : Text) (edit : Match α → σ → Option Edited × σ)
    (ms : List (Match α)) (st : σ) : Edited :=
  (editFrom s edit ms st .start).finish s

/-- Replaces matches one after the other. -/
def replaceFrom (s : Text) (new? : Match α → σ → Option Text × σ) :
    List (Match α) → σ → Copying → Copying
  | [], _, c => c
  | m :: ms, st, c =>
    replaceFrom s new? ms (new? m st).2 (c.replace s m (new? m st).1)

/-- Replaces the matches of a text, counting one for each. -/
def replaceMatches (s : Text) (new? : Match α → σ → Option Text × σ)
    (ms : List (Match α)) (st : σ) : Edited :=
  (replaceFrom s new? ms st .start).finish s

-- ---------------------------------------------- what a copy comes to

/-- A copy that has come to a place, with what is still to come. What was
not written yet is copied as it is. -/
def Copying.CompletedBy (c : Copying) (s : Text) (place : Nat)
    (answered : List (Match α × Option Edited)) (last : Copying) : Prop :=
  last.written ++ s.drop last.read
      = c.written ++ stretch s c.read place ++ woven s place answered
    ∧ last.count = c.count + (answered.map fun a => counted? a.2).sum

/-- A match in whose place something is written, then the rest. -/
theorem Copying.CompletedBy.put {c last : Copying} {s : Text} {place : Nat}
    {m : Match α} {answer : Option Edited}
    {rest : List (Match α × Option Edited)} (hread : c.read ≤ place)
    (hplace : place ≤ m.start)
    (h : (c.put s m (placed m answer) (counted? answer)).CompletedBy s m.stop
      rest last) : c.CompletedBy s place ((m, answer) :: rest) last := by
  obtain ⟨hwritten, hcount⟩ := h
  constructor
  · rw [hwritten, woven]
    show c.written ++ stretch s c.read m.start ++ placed m answer
      ++ stretch s m.stop m.stop ++ _ = _
    rw [stretch_self, ← stretch_append s hread hplace]
    simp only [List.append_assoc, List.nil_append]
  · rw [hcount, List.map_cons, List.sum_cons, ← Nat.add_assoc]
    rfl

/-- A match that stays, then the rest. It is copied with what follows. -/
theorem Copying.CompletedBy.stay {c last : Copying} {s : Text} {place : Nat}
    {m : Match α} {answer : Option Edited}
    {rest : List (Match α × Option Edited)} (hread : c.read ≤ place)
    (hplace : place ≤ m.start) (htaken : m.hit.taken <+: s.drop m.start)
    (hplaced : placed m answer = m.hit.taken) (hzero : counted? answer = 0)
    (h : c.CompletedBy s m.stop rest last) :
    c.CompletedBy s place ((m, answer) :: rest) last := by
  obtain ⟨hwritten, hcount⟩ := h
  constructor
  · rw [hwritten, woven, hplaced,
      ← stretch_append s (Nat.le_trans hread hplace) m.start_le_stop,
      ← stretch_append s hread hplace, stretch_match htaken]
    simp only [List.append_assoc]
  · rw [hcount, List.map_cons, List.sum_cons, hzero, Nat.zero_add]

theorem Copying.completedBy_nil {c : Copying} {s : Text} {place : Nat}
    (hread : c.read ≤ place) :
    c.CompletedBy s place ([] : List (Match α × Option Edited)) c := by
  refine ⟨?_, rfl⟩
  rw [woven, List.append_assoc, stretch_drop s hread]

theorem completedBy_editFrom {s : Text}
    {edit : Match α → σ → Option Edited × σ} {ms : List (Match α)}
    {place : Nat} {c : Copying} {st : σ} (hread : c.read ≤ place)
    (hms : InOrder s place ms) :
    c.CompletedBy s place (answers edit ms st) (editFrom s edit ms st c) := by
  induction ms generalizing place c st with
  | nil => exact Copying.completedBy_nil hread
  | cons m ms ih =>
    obtain ⟨hplace, htaken, hrest⟩ := hms
    have hstop : c.read ≤ m.stop :=
      Nat.le_trans hread (Nat.le_trans hplace m.start_le_stop)
    unfold answers editFrom
    cases (edit m st).1 with
    | none => exact .stay hread hplace htaken rfl rfl (ih hstop hrest)
    | some new =>
      by_cases hzero : new.count = 0
      · have hsame : c.edit s m (some new) = c := if_pos hzero
        rw [hsame]
        exact .stay hread hplace htaken (if_pos hzero) hzero (ih hstop hrest)
      · have hput : c.edit s m (some new)
            = c.put s m (placed m (some new)) (counted? (some new)) := by
          simp [Copying.edit, placed, counted?, hzero]
        rw [hput]
        exact .put hread hplace (ih (Nat.le_refl m.stop) hrest)

theorem completedBy_replaceFrom {s : Text}
    {new? : Match α → σ → Option Text × σ} {ms : List (Match α)}
    {place : Nat} {c : Copying} {st : σ} (hread : c.read ≤ place)
    (hms : InOrder s place ms) :
    c.CompletedBy s place (answers (countingOne new?) ms st)
      (replaceFrom s new? ms st c) := by
  induction ms generalizing place c st with
  | nil => exact Copying.completedBy_nil hread
  | cons m ms ih =>
    obtain ⟨hplace, -, hrest⟩ := hms
    have hput : c.replace s m (new? m st).1
        = c.put s m (placed m (countingOne new? m st).1)
          (counted? (countingOne new? m st).1) := by
      unfold Copying.replace countingOne
      cases (new? m st).1 with
      | none => rfl
      | some t => rfl
    unfold answers replaceFrom
    rw [hput]
    exact .put hread hplace (ih (Nat.le_refl m.stop) hrest)

/-- A copy of a whole text is what its answered matches make of it. -/
theorem Copying.isSplice_finish {s : Text}
    {edit : Match α → σ → Option Edited × σ} {ms : List (Match α)} {st : σ}
    (hms : InOrder s 0 ms) {c : Copying}
    (h : Copying.start.CompletedBy s 0 (answers edit ms st) c) :
    IsSplice s (answers edit ms st) (c.finish s) := by
  obtain ⟨hwritten, hcount⟩ := h
  have hstart : Copying.start.count = 0 := rfl
  rw [hstart, Nat.zero_add] at hcount
  unfold finish
  by_cases hzero : c.count = 0
  · rw [if_pos hzero]
    refine isSplice_of_eq hms ?_ (hcount ▸ hzero.symm)
    rw [woven_of_zero hms (hcount ▸ hzero)]
    rfl
  · rw [if_neg hzero]
    exact isSplice_of_eq hms hwritten hcount

theorem isSplice_editMatches {s : Text} (ms : Matching α s)
    (edit : Match α → σ → Option Edited × σ) (st : σ) :
    IsSplice s (answers edit ms.list st) (editMatches s edit ms.list st) :=
  Copying.isSplice_finish ms.inOrder
    (completedBy_editFrom (Nat.le_refl 0) ms.inOrder)

theorem isSplice_replaceMatches {s : Text} (ms : Matching α s)
    (new? : Match α → σ → Option Text × σ) (st : σ) :
    IsSplice s (answers (countingOne new?) ms.list st)
      (replaceMatches s new? ms.list st) :=
  Copying.isSplice_finish ms.inOrder
    (completedBy_replaceFrom (Nat.le_refl 0) ms.inOrder)

-- ============================================================ splicing

/-- What splicing into a text comes to. -/
structure Splicing (s : Text) : Prop where
  /-- A scanner finds the leftmost matches of the text and no others. -/
  leftmost : ∀ {α : Type} (sc : Scanner α) (ms : List (Match α)),
    sc.Leftmost s 0 ms ↔ ms = (sc.matching s).list
  /-- Opening tags are edited where they stand, each by its own text. -/
  editedTags : ∀ edit : Text → Edited,
    IsSplice s
      ((Markup.openingTags.matching s).list.map fun m =>
        (m, some (edit m.hit.taken)))
      (Markup.editOpeningTags edit s)
  /-- So are the hits of every scanner, also by edits that share a state. -/
  edited : ∀ {α σ : Type} (sc : Scanner α) (edit : Hit α → σ → Edited × σ)
    (st : σ),
    IsSplice s (answers (Scanner.atMatch edit) (sc.matching s).list st)
      (sc.spliceFrom edit st s).1
  /-- Hits are replaced where they stand, and each that is counts one. -/
  replaced : ∀ {α : Type} (sc : Scanner α) (new? : Hit α → Option Text),
    IsSplice s
      ((sc.matching s).list.map fun m => (m, (new? m.hit).map (⟨·, 1⟩)))
      (sc.replace new? s)
    ∧ (sc.replace new? s).count
      = (sc.matching s).list.countP fun m => (new? m.hit).isSome
  /-- So are those for which the replacements share a state. -/
  replacedFrom : ∀ {α σ : Type} (sc : Scanner α)
    (new? : Hit α → σ → Option Text × σ) (st : σ),
    IsSplice s
      (answers (countingOne (Scanner.newAtMatch new?)) (sc.matching s).list st)
      (sc.spliceFrom (fun h st => (Scanner.substitution h (new? h st).1,
        (new? h st).2)) st s).1
  /-- The matches of any pattern are edited in a copy that passes over those
  that stay. -/
  copied : ∀ {α σ : Type} (ms : Matching α s)
    (edit : Match α → σ → Option Edited × σ) (st : σ),
    IsSplice s (answers edit ms.list st) (editMatches s edit ms.list st)
  /-- They are replaced, counting one for each, in a copy that takes in those
  that stay. -/
  copiedOne : ∀ {α σ : Type} (ms : Matching α s)
    (new? : Match α → σ → Option Text × σ) (st : σ),
    IsSplice s (answers (countingOne new?) ms.list st)
      (replaceMatches s new? ms.list st)
    ∧ (replaceMatches s new? ms.list st).count
      = (answers (countingOne new?) ms.list st).countP fun a => a.2.isSome

/-- However it is done, a splice puts the counted replacements in the places
of the matches of the original text, keeps all else and adds up the
counts. -/
theorem splicing (s : Text) : Splicing s where
  leftmost sc _ := sc.leftmost_iff
  editedTags edit := by
    have h := Markup.openingTags.isSplice_spliceFrom
      (fun h (_ : Unit) => (edit h.taken, ())) () s
    rw [answers_unit] at h
    exact h
  edited sc edit st := sc.isSplice_spliceFrom edit st s
  replaced sc new? := by
    have h := sc.isSplice_substitution (fun h (_ : Unit) => (new? h, ())) () s
    have hcount := h.count.trans (sum_countingOne _ _ _)
    rw [answers_unit] at h hcount
    refine ⟨h, hcount.trans ?_⟩
    rw [List.countP_map]
    refine List.countP_congr fun m _ => ?_
    show ((new? m.hit).map _).isSome = true ↔ _
    rw [Option.isSome_map]
  replacedFrom sc new? st := sc.isSplice_substitution new? st s
  copied ms edit st := isSplice_editMatches ms edit st
  copiedOne ms new? st :=
    have h := isSplice_replaceMatches ms new? st
    ⟨h, h.count.trans (sum_countingOne new? ms.list st)⟩

end ComponentMarkdown
