/-
Kebab case. Its result has no capitals, and a text without capitals is its own
kebab case, so there is nothing left to do for a second time
(`kebabCase_kebabCase`). Blanks are neither changed nor brought in, so it
makes no difference whether a name is trimmed before or after
(`trim_kebabCase`).
-/
import ComponentMarkdown.ElementSet
import ComponentMarkdown.Proofs.Text.Blank
import ComponentMarkdown.Proofs.Text.Case
import ComponentMarkdown.Proofs.Text.LineEnds

namespace ComponentMarkdown

open Text

-- ============================================================ one letter

theorem isUpper_of_isBlank {c : Char} (hc : isBlank c = true) :
    c.isUpper = false :=
  eq_false_of_isBlank (by decide +kernel) hc

theorem kebabFrom_capital {c : Char} (hc : c.isUpper = true)
    (afterSmall : Bool) (rest : Text) :
    kebabFrom afterSmall (c :: rest)
      = (if afterSmall then ['-'] else [])
        ++ c.toLower :: kebabFrom false rest := by
  rw [kebabFrom, if_pos hc]
  cases afterSmall <;> rfl

theorem kebabFrom_other {c : Char} (hc : c.isUpper = false)
    (afterSmall : Bool) (rest : Text) :
    kebabFrom afterSmall (c :: rest)
      = c :: kebabFrom (c.isLower || c.isDigit) rest := by
  rw [kebabFrom, if_neg (by simp [hc])]

-- ============================================================ twice

/-- No capital is left. -/
theorem isUpper_of_mem_kebabFrom {afterSmall : Bool} {t : Text} {c : Char}
    (h : c ∈ kebabFrom afterSmall t) : c.isUpper = false := by
  induction t generalizing afterSmall with
  | nil => cases h
  | cons d t ih =>
    cases hd : d.isUpper with
    | true =>
      rw [kebabFrom_capital hd, List.mem_append, List.mem_cons] at h
      rcases h with h | rfl | h
      · cases afterSmall
        · cases h
        · rw [List.mem_singleton.1 h]
          rfl
      · exact isUpper_toLower d
      · exact ih h
    | false =>
      rw [kebabFrom_other hd, List.mem_cons] at h
      rcases h with rfl | h
      · exact hd
      · exact ih h

/-- A text without capitals stays as it is. -/
theorem kebabFrom_of_no_capital {t : Text} (h : ∀ c ∈ t, c.isUpper = false)
    (afterSmall : Bool) : kebabFrom afterSmall t = t := by
  induction t generalizing afterSmall with
  | nil => rfl
  | cons c t ih =>
    obtain ⟨hc, ht⟩ := List.forall_mem_cons.1 h
    rw [kebabFrom_other hc, ih ht]

/-- Kebab case of kebab case is the same. -/
theorem kebabCase_kebabCase (t : Text) :
    kebabCase (kebabCase t) = kebabCase t :=
  kebabFrom_of_no_capital (fun _ => isUpper_of_mem_kebabFrom) false

-- ============================================================= trimming

theorem isEmpty_kebabFrom (afterSmall : Bool) (t : Text) :
    (kebabFrom afterSmall t).isEmpty = t.isEmpty := by
  cases t with
  | nil => rfl
  | cons c t =>
    cases hc : c.isUpper with
    | true =>
      rw [kebabFrom_capital hc]
      cases afterSmall <;> rfl
    | false =>
      rw [kebabFrom_other hc]
      rfl

theorem kebabCase_eq_nil_iff {t : Text} : kebabCase t = [] ↔ t = [] := by
  rw [← List.isEmpty_iff, ← List.isEmpty_iff, kebabCase, isEmpty_kebabFrom]

theorem trimEnd_cons_visible {c : Char} (hc : isBlank c = false) (t : Text) :
    trimEnd (c :: t) = c :: t.trimEnd := by
  rw [trimEnd_cons, hc, Bool.and_false, if_neg Bool.false_ne_true]

theorem trimStart_kebabCase (t : Text) :
    (kebabCase t).trimStart = kebabCase t.trimStart := by
  unfold kebabCase
  induction t with
  | nil => rfl
  | cons c t ih =>
    cases hblank : isBlank c with
    | true =>
      -- after a blank, the next character is not after a small letter either
      have hsmall : (c.isLower || c.isDigit) = false :=
        eq_false_of_isBlank (f := fun c => c.isLower || c.isDigit)
          (by decide +kernel) hblank
      rw [kebabFrom_other (isUpper_of_isBlank hblank), hsmall, trimStart,
        trimStart, List.dropWhile_cons_of_pos hblank,
        List.dropWhile_cons_of_pos hblank]
      exact ih
    | false =>
      rw [trimStart_cons hblank]
      cases hc : c.isUpper with
      | true =>
        rw [kebabFrom_capital hc]
        exact trimStart_cons ((isBlank_toLower c).trans hblank)
      | false =>
        rw [kebabFrom_other hc]
        exact trimStart_cons hblank

theorem trimEnd_kebabFrom (afterSmall : Bool) (t : Text) :
    (kebabFrom afterSmall t).trimEnd = kebabFrom afterSmall t.trimEnd := by
  induction t generalizing afterSmall with
  | nil => rfl
  | cons c t ih =>
    cases hc : c.isUpper with
    | true =>
      have hvisible : isBlank c = false := by
        rw [Bool.eq_false_iff]
        intro hblank
        rw [isUpper_of_isBlank hblank] at hc
        cases hc
      have hlower := trimEnd_cons_visible ((isBlank_toLower c).trans hvisible)
      rw [kebabFrom_capital hc, trimEnd_cons_visible hvisible,
        kebabFrom_capital hc, ← ih]
      cases afterSmall
      · exact hlower _
      · exact (trimEnd_cons_visible (by decide) _).trans
          (congrArg ('-' :: ·) (hlower _))
    | false =>
      rw [kebabFrom_other hc, trimEnd_cons, trimEnd_cons, ih,
        isEmpty_kebabFrom]
      cases (trimEnd t).isEmpty && isBlank c
      · exact (kebabFrom_other hc afterSmall _).symm
      · rfl

/-- Trimming and kebab case do not get in each other's way. -/
theorem trim_kebabCase (t : Text) : (kebabCase t).trim = kebabCase t.trim := by
  unfold trim
  rw [trimStart_kebabCase]
  exact trimEnd_kebabFrom false _

end ComponentMarkdown
