/-
Trimming and blanks: what is left of a text when the blanks go. A text
trims to nothing exactly when it is all blanks (`trim_eq_nil_iff`). No
blank belongs to a word (`isWordChar_of_isBlank`), and what tells classes of
characters apart is checked on the characters of one of them
(`eq_false_of_isBlank`, `not_mem_of_class`).
-/
import ComponentMarkdown.Text.Basic
import ComponentMarkdown.Text.Word

namespace ComponentMarkdown

-- ================================================== blanks and words

/-- The code points of the blank characters. -/
def blankCodes : List Nat :=
  List.range' 9 5 ++ [0x20, 0x85, 0xa0, 0x1680] ++ List.range' 0x2000 11
    ++ [0x2028, 0x2029, 0x202f, 0x205f, 0x3000]

theorem isBlank_space : isBlank ' ' = true := by decide

theorem mem_blankCodes {c : Char} (hc : isBlank c = true) :
    c.toNat ∈ blankCodes := by
  simp only [isBlank, Bool.or_eq_true, Bool.and_eq_true, decide_eq_true_eq,
    beq_iff_eq] at hc
  simp only [blankCodes, List.mem_append, List.mem_range'_1, List.mem_cons,
    List.not_mem_nil, or_false]
  omega

/-- What is false of the twenty-five code points is false of every
blank. -/
theorem eq_false_of_isBlank {f : Char → Bool}
    (hf : ∀ n ∈ blankCodes, f (Char.ofNat n) = false) {c : Char}
    (hc : isBlank c = true) : f c = false := by
  have h := hf c.toNat (mem_blankCodes hc)
  rwa [Char.ofNat_toNat] at h

/-- No blank belongs to a class without the codes of blanks. -/
theorem isBlank_of_class {f : Char → Bool}
    (hf : ∀ n ∈ blankCodes, f (Char.ofNat n) = false) {c : Char}
    (hc : f c = true) : isBlank c = false := by
  rw [← Bool.not_eq_true]
  intro hblank
  rw [eq_false_of_isBlank hf hblank] at hc
  cases hc

/-- What is said of the characters of a list is decided by going through the
list, even where there are instances that go through all characters. -/
instance decidableForallChar {p : Char → Prop} [DecidablePred p]
    (l : List Char) : Decidable (∀ c ∈ l, p c) :=
  List.decidableBAll p l

/-- What is true of a character and of none in a list keeps it out of the
list. -/
theorem not_mem_of_class {f : Char → Bool} {l : List Char}
    (hl : ∀ d ∈ l, f d = false) {c : Char} (hc : f c = true) : c ∉ l := by
  intro hmem
  rw [hl c hmem] at hc
  cases hc

/-- Where a word ends is seen from the text: what starts a word that nothing
prolongs is the word, or is prolonged by a character of it. -/
theorem word_split {f : Char → Bool} {a b s t : Text}
    (hb : ∀ c ∈ b, f c = true) (hs : ∀ c ∈ s.head?, f c = false)
    (h : a ++ s = b ++ t) :
    a = b ∧ s = t ∨ ∃ d more, a = b ++ d :: more ∧ t = d :: more ++ s := by
  rcases List.append_eq_append_iff.1 h with
    ⟨more, hmore, hst⟩ | ⟨more, hmore, hst⟩
  · cases more with
    | nil =>
      rw [List.append_nil] at hmore
      exact Or.inl ⟨hmore.symm, hst⟩
    | cons d more =>
      have hd : f d = true := hb d (by rw [hmore]; simp)
      rw [hs d (by rw [hst]; rfl)] at hd
      cases hd
  · cases more with
    | nil =>
      rw [List.append_nil] at hmore
      exact Or.inl ⟨hmore, hst.symm⟩
    | cons d more => exact Or.inr ⟨d, more, hmore, hst⟩

/-- Two words that nothing prolongs are the same. -/
theorem word_unique {f : Char → Bool} {a b s t : Text}
    (ha : ∀ c ∈ a, f c = true) (hb : ∀ c ∈ b, f c = true)
    (hs : ∀ c ∈ s.head?, f c = false) (ht : ∀ c ∈ t.head?, f c = false)
    (h : a ++ s = b ++ t) : a = b := by
  rcases word_split hb hs h with ⟨heq, -⟩ | ⟨d, more, hmore, hrest⟩
  · exact heq
  · have hd : f d = true := ha d (by rw [hmore]; simp)
    rw [ht d (by rw [hrest]; rfl)] at hd
    cases hd

/-- No blank stands in the table of word characters. -/
theorem isWordChar_of_isBlank {c : Char} (hc : isBlank c = true) :
    isWordChar c = false :=
  eq_false_of_isBlank (by decide +kernel) hc

/-- A blank character. -/
abbrev Blank := {c : Char // isBlank c = true}

theorem isBlank_of_mem {blanks : List Blank} :
    ∀ c ∈ blanks.map Subtype.val, isBlank c = true := by
  intro c hc
  obtain ⟨b, -, rfl⟩ := List.mem_map.1 hc
  exact b.2

namespace Text

-- =========================================================== trimming

/-- Nothing is left but of blanks. -/
theorem trimEnd_eq_nil_iff {t : Text} :
    t.trimEnd = [] ↔ ∀ c ∈ t, isBlank c = true := by
  induction t with
  | nil => simp [trimEnd]
  | cons c t ih =>
    rw [trimEnd, List.forall_mem_cons, ← ih]
    cases ht : trimEnd t with
    | nil => cases hc : isBlank c <;> simp
    | cons d kept => simp

/-- Blanks at the end are no matter. -/
theorem trimEnd_append_of_blank (t : Text) {blanks : Text}
    (hblanks : ∀ c ∈ blanks, isBlank c = true) :
    trimEnd (t ++ blanks) = trimEnd t := by
  induction t with
  | nil =>
    rw [List.nil_append, trimEnd_eq_nil_iff.2 hblanks]
    rfl
  | cons c t ih => rw [List.cons_append, trimEnd, trimEnd, ih]

/-- A text that ends with something visible is not trimmed there. -/
theorem trimEnd_concat (t : Text) {c : Char} (hc : isBlank c = false) :
    trimEnd (t ++ [c]) = t ++ [c] := by
  induction t with
  | nil =>
    show (if isBlank c then [] else [c]) = [c]
    rw [if_neg (by rw [hc]; decide)]
  | cons d t ih =>
    rw [List.cons_append, trimEnd, ih]
    cases t <;> rfl

/-- What is trimmed off the end of a text is blank. -/
theorem exists_trimEnd_append (t : Text) :
    ∃ blanks, (∀ c ∈ blanks, isBlank c = true)
      ∧ t = t.trimEnd ++ blanks := by
  induction t with
  | nil => exact ⟨[], (fun c hc => by cases hc), rfl⟩
  | cons c t ih =>
    obtain ⟨blanks, hblanks, ht⟩ := ih
    rw [trimEnd]
    cases hkept : trimEnd t with
    | nil =>
      rw [hkept, List.nil_append] at ht
      cases hc : isBlank c with
      | true =>
        refine ⟨c :: blanks, List.forall_mem_cons.2 ⟨hc, hblanks⟩, ?_⟩
        rw [ht]
        rfl
      | false =>
        refine ⟨blanks, hblanks, ?_⟩
        rw [ht]
        rfl
    | cons d kept =>
      refine ⟨blanks, hblanks, ?_⟩
      rw [hkept] at ht
      rw [List.cons_append, ← ht]

/-- Trimming takes blanks off both ends. -/
theorem exists_append_trim_append (t : Text) :
    ∃ lead blanks, (∀ c ∈ lead, isBlank c = true)
      ∧ (∀ c ∈ blanks, isBlank c = true) ∧ t = lead ++ t.trim ++ blanks := by
  obtain ⟨blanks, hblanks, hend⟩ := exists_trimEnd_append (trimStart t)
  refine ⟨t.takeWhile isBlank, blanks, ?_, hblanks, ?_⟩
  · exact fun c hc => List.all_eq_true.1 List.all_takeWhile c hc
  · rw [List.append_assoc]
    unfold trim
    rw [← hend]
    exact List.takeWhile_append_dropWhile.symm

/-- What is left of a text stands in it. -/
theorem isInfix_trim (t : Text) : t.trim <:+: t := by
  obtain ⟨lead, blanks, -, -, ht⟩ := exists_append_trim_append t
  exact ⟨lead, blanks, ht.symm⟩

/-- Trimming keeps what is visible, and brings nothing in. -/
theorem mem_trim_iff {t : Text} {c : Char} (hc : isBlank c = false) :
    c ∈ t.trim ↔ c ∈ t := by
  obtain ⟨lead, blanks, hlead, hblanks, ht⟩ := exists_append_trim_append t
  have hnot {b : Text} (hb : ∀ d ∈ b, isBlank d = true) : c ∉ b := by
    intro hmem
    rw [hb c hmem] at hc
    cases hc
  conv => rhs; rw [ht]
  simp [hnot hlead, hnot hblanks]

/-- Trimming brings nothing in. -/
theorem mem_of_mem_trim {t : Text} {c : Char} (h : c ∈ t.trim) : c ∈ t := by
  obtain ⟨lead, blanks, -, -, ht⟩ := exists_append_trim_append t
  rw [ht]
  exact List.mem_append_left _ (List.mem_append_right _ h)

/-- A text that starts with something visible is not trimmed there. -/
theorem trimStart_cons {c : Char} {t : Text} (hc : isBlank c = false) :
    trimStart (c :: t) = c :: t := by
  rw [trimStart, List.dropWhile_cons_of_neg (by simp [hc])]

/-- A text trims to nothing when there is nothing in it but blanks. -/
theorem trim_eq_nil_iff {t : Text} :
    t.trim = [] ↔ ∀ c ∈ t, isBlank c = true := by
  rw [trim, trimEnd_eq_nil_iff]
  induction t with
  | nil => simp [trimStart]
  | cons c t ih =>
    cases hc : isBlank c with
    | true =>
      rw [trimStart, List.dropWhile_cons_of_pos hc, ← trimStart, ih,
        List.forall_mem_cons, and_iff_right hc]
    | false => rw [trimStart_cons hc]

/-- A text without blanks has nothing to trim. -/
theorem trim_of_visible {t : Text} (h : ∀ c ∈ t, isBlank c = false) :
    t.trim = t := by
  obtain ⟨lead, blanks, hlead, hblanks, ht⟩ := exists_append_trim_append t
  have hnil {b : Text} (hb : ∀ c ∈ b, isBlank c = true)
      (hsub : ∀ c ∈ b, c ∈ t) : b = [] := by
    refine List.eq_nil_iff_forall_not_mem.2 fun c hc => ?_
    have hblank := hb c hc
    rw [h c (hsub c hc)] at hblank
    cases hblank
  have hleadNil : lead = [] := hnil hlead fun c hc => by
    rw [ht]
    exact List.mem_append_left _ (List.mem_append_left _ hc)
  have hblanksNil : blanks = [] := hnil hblanks fun c hc => by
    rw [ht]
    exact List.mem_append_right _ hc
  rw [hleadNil, hblanksNil, List.nil_append, List.append_nil] at ht
  exact ht.symm

/-- What has been trimmed has nothing to trim at its end. -/
theorem trimEnd_trimEnd (t : Text) : t.trimEnd.trimEnd = t.trimEnd := by
  obtain ⟨blanks, hblanks, ht⟩ := exists_trimEnd_append t
  conv => rhs; rw [ht, trimEnd_append_of_blank _ hblanks]

/-- A trimmed text has nothing to trim. -/
theorem trim_trim (t : Text) : t.trim.trim = t.trim := by
  have hvisible := List.head?_dropWhile_not isBlank t
  unfold trim
  cases hstart : trimStart t with
  | nil => rfl
  | cons c rest =>
    rw [← trimStart, hstart] at hvisible
    have hc : isBlank c = false := by simpa using hvisible
    have hend : ∃ kept, trimEnd (c :: rest) = c :: kept := by
      rw [trimEnd]
      cases trimEnd rest with
      | nil => exact ⟨[], if_neg (by simp [hc])⟩
      | cons d kept => exact ⟨_, rfl⟩
    obtain ⟨kept, hkept⟩ := hend
    have hagain := trimEnd_trimEnd (c :: rest)
    rw [hkept] at hagain ⊢
    rw [trimStart_cons hc, hagain]

end Text

end ComponentMarkdown
