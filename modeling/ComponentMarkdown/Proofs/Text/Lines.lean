/-
What cutting into lines gives: lists of lines that end in their only line
feed, the last one perhaps without (`LineCut`). Such a list is the cut of
the text it makes up (`lines_flatten_of_lineCut`), so the cut is the only
one of its kind, and any stretch of lines out of a document is cut into
the same lines when it is read on its own (`lines_flatten_of_infix`). That
is what lets a reader go on from the middle of a document.
-/
import ComponentMarkdown.Text.Basic

namespace ComponentMarkdown.Text

-- ============================================= the end of a text

/-- Whether a text ends with a character, where `before` says whether what
precedes the text does. -/
def endsWith (x : Char) : Bool → Text → Bool
  | before, [] => before
  | _, c :: rest => endsWith x (c == x) rest

@[simp] theorem endsWith_cons (x c : Char) (before : Bool) (t : Text) :
    endsWith x before (c :: t) = endsWith x (c == x) t := rfl

/-- How two texts end is how the second does, from the first. -/
theorem endsWith_append (x : Char) (before : Bool) (a b : Text) :
    endsWith x before (a ++ b) = endsWith x (endsWith x before a) b := by
  induction a generalizing before with
  | nil => rfl
  | cons c a ih => exact ih (c == x)

theorem endsWith_concat (x : Char) (before : Bool) (t : Text) (c : Char) :
    endsWith x before (t ++ [c]) = (c == x) := by
  rw [endsWith_append]
  rfl

theorem endsWith_of_not_mem {x : Char} {t : Text} (h : x ∉ t) :
    endsWith x false t = false := by
  induction t with
  | nil => rfl
  | cons c t ih =>
    rw [List.mem_cons, not_or] at h
    rw [endsWith_cons, beq_false_of_ne (Ne.symm h.1)]
    exact ih h.2

/-- What precedes a text can only make it end so. -/
theorem endsWith_mono {x : Char} {p q : Bool} (hpq : p = true → q = true)
    {t : Text} (h : endsWith x p t = true) : endsWith x q t = true := by
  cases t with
  | nil => exact hpq h
  | cons c t => exact h

-- ======================================================== cut texts

/-- A list of lines as cutting a text produces it: every line but the last
is closed by its only line feed, and the last one is not empty. -/
inductive LineCut : List Text → Prop
  | nil : LineCut []
  | unended {line : Text} (hne : line ≠ []) (h : '\n' ∉ line) :
      LineCut [line]
  | ended {body : Text} {more : List Text} (h : '\n' ∉ body)
      (hmore : LineCut more) : LineCut ((body ++ ['\n']) :: more)

/-- A line that ends is cut off from what follows. -/
theorem lines_ended {body : Text} (h : '\n' ∉ body) (t : Text) :
    lines (body ++ '\n' :: t) = (body ++ ['\n']) :: lines t := by
  induction body with
  | nil => simp [lines]
  | cons c body ih =>
    rw [List.mem_cons, not_or] at h
    simp only [List.cons_append, lines, ih h.2]
    rw [if_neg (Ne.symm h.1)]

/-- A text without a line feed is one line. -/
theorem lines_unended {line : Text} (hne : line ≠ []) (h : '\n' ∉ line) :
    lines line = [line] := by
  induction line with
  | nil => exact absurd rfl hne
  | cons c line ih =>
    rw [List.mem_cons, not_or] at h
    rw [lines, if_neg (Ne.symm h.1)]
    cases line with
    | nil => rfl
    | cons d line => rw [ih (by simp) h.2]

/-- A cut list of lines is the cut of the text it makes up. -/
theorem lines_flatten_of_lineCut {ls : List Text} (h : LineCut ls) :
    lines ls.flatten = ls := by
  induction h with
  | nil => rfl
  | unended hne h => simp [lines_unended hne h]
  | ended h _ ih =>
    rw [List.flatten_cons, List.append_assoc, List.singleton_append,
      lines_ended h, ih]

/-- One more character in front of a cut, if it is no line feed, joins the
first line. -/
theorem LineCut.cons_char {c : Char} {line : Text} {more : List Text}
    (hc : c ≠ '\n') (h : LineCut (line :: more)) :
    LineCut ((c :: line) :: more) := by
  have hmem {t : Text} (ht : '\n' ∉ t) : '\n' ∉ c :: t := by
    rw [List.mem_cons, not_or]
    exact ⟨Ne.symm hc, ht⟩
  cases h with
  | unended hne h => exact .unended (by simp) (hmem h)
  | ended h hmore =>
    rw [← List.cons_append]
    exact .ended (hmem h) hmore

/-- Cutting a text gives a cut list of lines. -/
theorem lineCut_lines (t : Text) : LineCut (lines t) := by
  induction t with
  | nil => exact .nil
  | cons c t ih =>
    by_cases hc : c = '\n'
    · rw [lines, if_pos hc, hc, ← List.nil_append ['\n']]
      exact .ended (by simp) ih
    · rw [lines, if_neg hc]
      cases hl : lines t with
      | nil => exact .unended (by simp) (by simpa using Ne.symm hc)
      | cons line more =>
        rw [hl] at ih
        exact ih.cons_char hc

-- ================================================= stretches of lines

/-- What follows the first line of a cut is a cut. -/
theorem LineCut.tail {line : Text} {more : List Text}
    (h : LineCut (line :: more)) : LineCut more := by
  cases h with
  | unended _ _ => exact .nil
  | ended _ hmore => exact hmore

/-- What follows a beginning of a cut is a cut. -/
theorem LineCut.right {a b : List Text} (h : LineCut (a ++ b)) :
    LineCut b := by
  induction a with
  | nil => exact h
  | cons line a ih => exact ih h.tail

/-- A beginning of a cut is a cut. -/
theorem LineCut.left {a b : List Text} (h : LineCut (a ++ b)) :
    LineCut a := by
  induction a with
  | nil => exact .nil
  | cons line a ih =>
    have ha := ih h.tail
    rw [List.cons_append] at h
    generalize hm : a ++ b = more at h
    cases h with
    | unended hne h =>
      obtain ⟨rfl, -⟩ := List.append_eq_nil_iff.1 hm
      exact .unended hne h
    | ended h _ => exact .ended h ha

/-- A stretch of the lines of a text is cut into the same lines again. -/
theorem lines_flatten_of_infix {t : Text} {a b c : List Text}
    (h : lines t = a ++ b ++ c) : lines b.flatten = b := by
  have hcut := lineCut_lines t
  rw [h] at hcut
  exact lines_flatten_of_lineCut hcut.left.right

end ComponentMarkdown.Text
