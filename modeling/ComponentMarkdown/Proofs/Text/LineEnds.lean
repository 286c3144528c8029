/-
Line ends of two characters. `crlf` writes a return before every line feed
of a text. Whatever looks at a text through a class of characters that
tells the two no more than it tells blanks sees the same afterwards: runs
of characters, trimming, lines.

An edit may leave a return behind without the line feed it belonged to.
`ReturnsUpTo` counts such returns, so that texts made of several stretches
can be compared stretch by stretch; where there are none, the text is that
of the line feeds with returns before them.
-/
import ComponentMarkdown.Text.Basic

namespace ComponentMarkdown.Text

-- ============================================================ the copy

/-- The return in front of a line feed; there is none before any other
character. -/
def returnFor (c : Char) : Text := if c = '\n' then ['\r'] else []

/-- A text with a return before every line feed. -/
def crlf : Text → Text
  | [] => []
  | c :: t => returnFor c ++ c :: crlf t

@[simp] theorem crlf_nil : crlf [] = [] := rfl

@[simp] theorem crlf_feed (t : Text) :
    crlf ('\n' :: t) = '\r' :: '\n' :: crlf t := rfl

/-- A return is put before a line end, and before nothing else. -/
theorem crlf_cons (c : Char) (t : Text) :
    crlf (c :: t) = returnFor c ++ c :: crlf t := rfl

theorem crlf_char {c : Char} (hc : c ≠ '\n') (t : Text) :
    crlf (c :: t) = c :: crlf t := by
  rw [crlf_cons, returnFor, if_neg hc]
  rfl

/-- Returns are put into two texts one by one. -/
theorem crlf_append (a b : Text) : crlf (a ++ b) = crlf a ++ crlf b := by
  induction a with
  | nil => rfl
  | cons c a ih =>
    rw [List.cons_append, crlf_cons, crlf_cons, ih, List.append_assoc,
      List.cons_append]

/-- A line stays as it is. -/
theorem crlf_of_not_mem {t : Text} (h : '\n' ∉ t) : crlf t = t := by
  induction t with
  | nil => rfl
  | cons c t ih =>
    rw [List.mem_cons, not_or] at h
    rw [crlf_char (Ne.symm h.1), ih h.2]

/-- And they are put into as many texts as there are. -/
theorem crlf_flatten (ts : List Text) :
    crlf ts.flatten = (ts.map crlf).flatten := by
  induction ts with
  | nil => rfl
  | cons t ts ih =>
    rw [List.flatten_cons, crlf_append, ih]
    rfl

theorem crlf_eq_nil_iff {t : Text} : crlf t = [] ↔ t = [] := by
  cases t with
  | nil => simp
  | cons c t => simp [crlf_cons]

/-- What a copy starts with, but for a return or a line feed, the text
starts with. -/
theorem exists_of_crlf_eq_cons {c : Char} (hc : isBlank c = false) {t u : Text}
    (h : crlf t = c :: u) : ∃ rest, t = c :: rest ∧ u = crlf rest := by
  cases t with
  | nil => cases h
  | cons d t =>
    by_cases hd : d = '\n'
    · subst hd
      obtain ⟨rfl, -⟩ := List.cons.inj h
      cases hc
    · rw [crlf_char hd] at h
      obtain ⟨rfl, rfl⟩ := List.cons.inj h
      exact ⟨t, rfl, rfl⟩

/-- Nothing but returns is brought in. -/
theorem mem_crlf_iff {c : Char} (hc : c ≠ '\r') {t : Text} :
    c ∈ crlf t ↔ c ∈ t := by
  induction t with
  | nil => rfl
  | cons d t ih =>
    by_cases hd : d = '\n'
    · subst hd
      rw [crlf_feed, List.mem_cons, List.mem_cons, ih, List.mem_cons]
      simp [hc]
    · rw [crlf_char hd, List.mem_cons, ih, List.mem_cons]

-- ================================================== character classes

section

variable {p : Char → Bool} (hp : p '\r' = p '\n') (t : Text)

include hp

/-- A class that holds both ends of lines or neither holds as long with
returns, -/
theorem takeWhile_crlf : (crlf t).takeWhile p = crlf (t.takeWhile p) := by
  induction t with
  | nil => rfl
  | cons c t ih =>
    by_cases hc : c = '\n'
    · subst hc
      rw [crlf_feed, List.takeWhile_cons, List.takeWhile_cons,
        List.takeWhile_cons, hp, ih]
      cases p '\n' <;> rfl
    · rw [crlf_char hc, List.takeWhile_cons, List.takeWhile_cons, ih]
      cases p c
      · rfl
      · exact (crlf_char hc _).symm

/-- and leaves the same behind it. -/
theorem dropWhile_crlf : (crlf t).dropWhile p = crlf (t.dropWhile p) := by
  induction t with
  | nil => rfl
  | cons c t ih =>
    by_cases hc : c = '\n'
    · subst hc
      rw [crlf_feed, List.dropWhile_cons, List.dropWhile_cons,
        List.dropWhile_cons, hp, ih]
      cases p '\n' <;> rfl
    · rw [crlf_char hc, List.dropWhile_cons, List.dropWhile_cons, ih]
      cases p c
      · exact (crlf_char hc _).symm
      · rfl

theorem all_crlf : (crlf t).all p = t.all p := by
  induction t with
  | nil => rfl
  | cons c t ih =>
    by_cases hc : c = '\n'
    · subst hc
      rw [crlf_feed, List.all_cons, List.all_cons, List.all_cons, hp, ih,
        Bool.and_self_left]
    · rw [crlf_char hc, List.all_cons, List.all_cons, ih]

end

/-- Neither of the two characters starts a run of others. -/
theorem crlf_takeWhile {p : Char → Bool} (hfeed : p '\n' = false)
    (t : Text) : crlf (t.takeWhile p) = t.takeWhile p := by
  refine crlf_of_not_mem fun hmem => ?_
  have hall := List.all_eq_true.1 (List.all_takeWhile (l := t) (p := p))
  rw [hall _ hmem] at hfeed
  cases hfeed

theorem isEmpty_crlf (t : Text) : (crlf t).isEmpty = t.isEmpty := by
  rw [Bool.eq_iff_iff, List.isEmpty_iff, List.isEmpty_iff, crlf_eq_nil_iff]

theorem trimEnd_cons (c : Char) (t : Text) :
    trimEnd (c :: t)
      = if t.trimEnd.isEmpty && isBlank c then [] else c :: t.trimEnd := by
  rw [trimEnd]
  cases t.trimEnd with
  | nil => cases isBlank c <;> rfl
  | cons d kept => rfl

/-- Returns are trimmed with the line ends they stand at, -/
theorem trimEnd_crlf (t : Text) : (crlf t).trimEnd = crlf t.trimEnd := by
  induction t with
  | nil => rfl
  | cons c t ih =>
    by_cases hc : c = '\n'
    · subst hc
      rw [crlf_feed, trimEnd_cons, trimEnd_cons, trimEnd_cons, ih,
        isEmpty_crlf]
      cases (trimEnd t).isEmpty <;> rfl
    · rw [crlf_char hc, trimEnd_cons, trimEnd_cons, ih, isEmpty_crlf]
      cases (trimEnd t).isEmpty && isBlank c
      · exact (crlf_char hc _).symm
      · rfl

/-- at both ends of a text. -/
theorem trim_crlf (t : Text) : (crlf t).trim = crlf t.trim := by
  unfold trim trimStart
  rw [dropWhile_crlf rfl, trimEnd_crlf]

/-- Lines end where they ended. -/
theorem lines_crlf (t : Text) : (crlf t).lines = t.lines.map crlf := by
  induction t with
  | nil => rfl
  | cons c t ih =>
    by_cases hc : c = '\n'
    · subst hc
      rw [crlf_feed, lines, lines, lines, ih]
      rfl
    · rw [crlf_char hc, lines, lines, ih, if_neg hc, if_neg hc]
      cases lines t with
      | nil => exact congrArg (fun x => [x]) (crlf_char hc []).symm
      | cons line more =>
        exact congrArg (· :: more.map crlf) (crlf_char hc line).symm

-- ============================================================= prefixes

/-- A text of one line is at the head of another or is not, whatever the
line ends. -/
theorem isPrefixOf_crlf {a : Text} (hfeed : '\n' ∉ a) (hreturn : '\r' ∉ a)
    (t : Text) : a.isPrefixOf (crlf t) = a.isPrefixOf t := by
  induction a generalizing t with
  | nil => rfl
  | cons d a ih =>
    rw [List.mem_cons, not_or] at hfeed hreturn
    cases t with
    | nil => rfl
    | cons c t =>
      by_cases hc : c = '\n'
      · subst hc
        rw [crlf_feed, List.isPrefixOf, List.isPrefixOf,
          beq_false_of_ne (Ne.symm hreturn.1),
          beq_false_of_ne (Ne.symm hfeed.1)]
        rfl
      · rw [crlf_char hc, List.isPrefixOf, List.isPrefixOf,
          ih hfeed.2 hreturn.2]

/-- Behind the same prefix stands the same, with returns. -/
theorem drop_crlf {a t : Text} (hfeed : '\n' ∉ a)
    (h : a.isPrefixOf t = true) :
    (crlf t).drop a.length = crlf (t.drop a.length) := by
  obtain ⟨rest, rfl⟩ := List.isPrefixOf_iff_prefix.1 h
  rw [crlf_append, crlf_of_not_mem hfeed, List.drop_left, List.drop_left]

-- ================================================== returns left behind

/-- A text with a return before every line feed of another, and so many
returns besides. -/
structure ReturnsUpTo (n : Nat) (t u : Text) : Prop where
  feeds : u.count '\n' = t.count '\n'
  returns : u.count '\r' = t.count '\r' + t.count '\n' + n
  eq : n = 0 → u = crlf t

/-- There are as many line ends as before, -/
theorem count_feed_crlf (t : Text) :
    (crlf t).count '\n' = t.count '\n' := by
  induction t with
  | nil => rfl
  | cons c t ih =>
    by_cases hc : c = '\n'
    · subst hc
      simp only [crlf_feed, List.count_cons, ih]
      simp
    · rw [crlf_char hc, List.count_cons, List.count_cons, ih]

/-- and one return more for each. -/
theorem count_return_crlf (t : Text) :
    (crlf t).count '\r' = t.count '\r' + t.count '\n' := by
  induction t with
  | nil => rfl
  | cons c t ih =>
    by_cases hc : c = '\n'
    · subst hc
      simp only [crlf_feed, List.count_cons, ih]
      simp
      omega
    · rw [crlf_char hc, List.count_cons, List.count_cons, List.count_cons, ih,
        beq_false_of_ne hc]
      simp
      omega

theorem returnsUpTo_crlf (t : Text) : ReturnsUpTo 0 t (crlf t) :=
  ⟨count_feed_crlf t, count_return_crlf t, fun _ => rfl⟩

/-- Only without returns left behind is the text the one with returns
before its line feeds. -/
theorem ReturnsUpTo.eq_crlf_iff {n : Nat} {t u : Text}
    (h : ReturnsUpTo n t u) : u = crlf t ↔ n = 0 := by
  constructor
  · rintro rfl
    have hcount := h.returns
    rw [count_return_crlf] at hcount
    omega
  · exact h.eq

/-- Texts that differ in returns do so one behind the other. -/
theorem ReturnsUpTo.append {m n : Nat} {a a' b b' : Text}
    (ha : ReturnsUpTo m a a') (hb : ReturnsUpTo n b b') :
    ReturnsUpTo (m + n) (a ++ b) (a' ++ b') := by
  refine ⟨?_, ?_, fun h => ?_⟩
  · rw [List.count_append, List.count_append, ha.feeds, hb.feeds]
  · rw [List.count_append, List.count_append, List.count_append, ha.returns,
      hb.returns]
    omega
  · rw [ha.eq (by omega), hb.eq (by omega), crlf_append]

theorem ReturnsUpTo.cons {n : Nat} {t u : Text} (h : ReturnsUpTo n t u)
    (c : Char) : ReturnsUpTo n (c :: t) (returnFor c ++ c :: u) := by
  have hcons := (returnsUpTo_crlf [c]).append h
  rw [Nat.zero_add, crlf_cons, List.append_assoc] at hcons
  exact hcons

/-- A return that is left behind. -/
theorem returnsUpTo_return : ReturnsUpTo 1 [] ['\r'] :=
  ⟨rfl, rfl, fun h => by cases h⟩

-- ====================================================== paired line ends

/-- Whether returns and line feeds stand in pairs, none of them alone. -/
def pairedEnds : Text → Bool
  | [] => true
  | '\r' :: '\n' :: t => pairedEnds t
  | c :: t => c != '\r' && c != '\n' && pairedEnds t

/-- Put into a text without returns, they come in pairs with the line ends. -/
theorem pairedEnds_crlf {t : Text} (h : '\r' ∉ t) :
    pairedEnds (crlf t) = true := by
  induction t with
  | nil => rfl
  | cons c t ih =>
    rw [List.mem_cons, not_or] at h
    by_cases hc : c = '\n'
    · subst hc
      exact ih h.2
    · rw [crlf_char hc]
      unfold pairedEnds
      split
      · rfl
      · rename_i heq
        exact absurd (List.cons.inj heq).1.symm h.1
      · rename_i heq
        obtain ⟨rfl, rfl⟩ := List.cons.inj heq
        simp [Ne.symm h.1, hc, ih h.2]

/-- In pairs there are as many returns as line ends. -/
theorem count_of_pairedEnds {t : Text} (h : pairedEnds t = true) :
    t.count '\r' = t.count '\n' := by
  fun_induction pairedEnds t with
  | case1 => rfl
  | case2 t ih =>
    have ih := ih h
    simp only [List.count_cons]
    simp
    omega
  | case3 c t hpair ih =>
    rw [Bool.and_eq_true, Bool.and_eq_true, bne_iff_ne, bne_iff_ne] at h
    rw [List.count_cons, List.count_cons, ih h.2, beq_false_of_ne h.1.1,
      beq_false_of_ne h.1.2]

/-- A text without returns has its line ends paired exactly if none is left
behind. -/
theorem ReturnsUpTo.pairedEnds_iff {n : Nat} {t u : Text}
    (h : ReturnsUpTo n t u) (ht : '\r' ∉ t) :
    pairedEnds u = true ↔ n = 0 := by
  constructor
  · intro hpaired
    have hcount := count_of_pairedEnds hpaired
    have hnone : t.count '\r' = 0 := List.count_eq_zero.2 ht
    have hreturns := h.returns
    rw [hcount, h.feeds, hnone] at hreturns
    omega
  · intro hn
    rw [h.eq hn]
    exact pairedEnds_crlf ht

end ComponentMarkdown.Text
