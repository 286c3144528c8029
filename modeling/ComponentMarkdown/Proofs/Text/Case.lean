/-
Text up to the case of ASCII letters. Lowering the capitals of a text
changes no character but the twenty-six capitals, so whatever does not
tell a capital from its small letter sees the lowered text as it sees the
text itself (`caseless`).
-/
import ComponentMarkdown.Proofs.Text.Bytes
import ComponentMarkdown.Text.Word

namespace ComponentMarkdown

-- ================================================== letters and digits

theorem isAlphanum_of_alpha {c : Char} (hc : c.isAlpha = true) :
    c.isAlphanum = true := by
  unfold Char.isAlphanum
  rw [hc]
  rfl

theorem toNat_lt_of_alphanum {c : Char} (hc : c.isAlphanum = true) :
    c.toNat < 128 := by
  change (decide (c.val ≥ 'A'.val ∧ c.val ≤ 'Z'.val)
    || decide (c.val ≥ 'a'.val) && decide (c.val ≤ 'z'.val)
    || decide (c.val ≥ '0'.val) && decide (c.val ≤ '9'.val)) = true at hc
  simp only [Bool.or_eq_true, Bool.and_eq_true, decide_eq_true_eq,
    UInt32.le_iff_toNat_le, ge_iff_le] at hc
  have hz : 'z'.val.toNat = 122 := rfl
  have hZ : 'Z'.val.toNat = 90 := rfl
  have h9 : '9'.val.toNat = 57 := rfl
  show c.val.toNat < 128
  omega

/-- Letters and digits of ASCII are characters of a word. -/
theorem isWordChar_of_alphanum {c : Char} (hc : c.isAlphanum = true) :
    isWordChar c = true := by
  rw [isWordChar_of_ascii (toNat_lt_of_alphanum hc)]
  unfold isAsciiWord
  rw [hc]
  rfl

-- ========================================================= characters

/-- Only capitals have another small letter. -/
theorem toLower_of_not_upper {c : Char} (hc : c.isUpper = false) :
    c.toLower = c := by
  have hnot : ¬(c.val ≥ 'A'.val ∧ c.val ≤ 'Z'.val) := of_decide_eq_false hc
  unfold Char.toLower
  rw [dif_neg hnot]

theorem mem_capitals {c : Char} (hc : c.isUpper = true) :
    c.toNat ∈ List.range' 65 26 := by
  obtain ⟨hlow, hhigh⟩ : c.val ≥ 'A'.val ∧ c.val ≤ 'Z'.val :=
    of_decide_eq_true hc
  have h₁ : 65 ≤ c.toNat := UInt32.le_iff_toNat_le.1 hlow
  have h₂ : c.toNat ≤ 90 := UInt32.le_iff_toNat_le.1 hhigh
  rw [List.mem_range'_1]
  omega

/-- What is the same for the twenty-six capitals and their small letters
does not tell any character from its lower case. -/
theorem caseless {β : Type} {f : Char → β}
    (hf : ∀ n ∈ List.range' 65 26,
      f (Char.ofNat n).toLower = f (Char.ofNat n)) (c : Char) :
    f c.toLower = f c := by
  cases hc : c.isUpper with
  | false => rw [toLower_of_not_upper hc]
  | true =>
    have h := hf c.toNat (mem_capitals hc)
    rwa [Char.ofNat_toNat] at h

/-- A small letter is no capital, -/
theorem isUpper_toLower (c : Char) : c.toLower.isUpper = false := by
  cases hc : c.isUpper with
  | false => rw [toLower_of_not_upper hc, hc]
  | true =>
    have hall : ∀ n ∈ List.range' 65 26,
        (Char.ofNat n).toLower.isUpper = false := by decide
    have h := hall c.toNat (mem_capitals hc)
    rwa [Char.ofNat_toNat] at h

/-- and stays as it is. -/
theorem toLower_toLower (c : Char) : c.toLower.toLower = c.toLower :=
  toLower_of_not_upper (isUpper_toLower c)

theorem isAlpha_toLower (c : Char) : c.toLower.isAlpha = c.isAlpha :=
  caseless (by decide) c

/-- No letter is a blank, in whatever case. -/
theorem isBlank_toLower (c : Char) : isBlank c.toLower = isBlank c :=
  caseless (by decide) c

/-- A letter takes as many bytes in either case. -/
theorem utf8Size_toLower (c : Char) : c.toLower.utf8Size = c.utf8Size :=
  caseless (by decide) c

/-- No letter is lowered to another character, and nothing else is
lowered. -/
theorem toLower_eq_iff {c x : Char} (hx : x.isAlpha = false) :
    c.toLower = x ↔ c = x := by
  constructor
  · intro h
    have hc : c.isAlpha = false := by rw [← isAlpha_toLower, h, hx]
    have hupper : c.isUpper = false := (Bool.or_eq_false_iff.1 hc).1
    rw [← toLower_of_not_upper hupper, h]
  · intro h
    have hupper : x.isUpper = false := (Bool.or_eq_false_iff.1 hx).1
    rw [h, toLower_of_not_upper hupper]

/-- What is no letter is told apart in either case. -/
theorem beq_toLower {x : Char} (hx : x.isAlpha = false) (c : Char) :
    (c.toLower == x) = (c == x) := by
  rw [Bool.eq_iff_iff, beq_iff_eq, beq_iff_eq, toLower_eq_iff hx]

-- ============================================================== texts

namespace Text

theorem length_asciiLower (t : Text) : t.asciiLower.length = t.length :=
  List.length_map _

theorem asciiLower_append (a b : Text) :
    (a ++ b).asciiLower = a.asciiLower ++ b.asciiLower :=
  List.map_append

/-- A text in small letters stays as it is. -/
theorem asciiLower_asciiLower (t : Text) :
    asciiLower (asciiLower t) = asciiLower t := by
  unfold asciiLower
  rw [List.map_map]
  exact congrArg (List.map · t) (funext toLower_toLower)

/-- A text takes as many bytes in small letters. -/
theorem byteLength_asciiLower (t : Text) :
    t.asciiLower.byteLength = t.byteLength := by
  induction t with
  | nil => rfl
  | cons c t ih =>
    show c.toLower.utf8Size + byteLength (asciiLower t) = _
    rw [ih, utf8Size_toLower, byteLength_cons]

/-- What is no letter stands in both texts or in neither. -/
theorem mem_asciiLower_iff {x : Char} (hx : x.isAlpha = false) {t : Text} :
    x ∈ t.asciiLower ↔ x ∈ t := by
  unfold asciiLower
  rw [List.mem_map]
  constructor
  · intro h
    obtain ⟨c, hc, heq⟩ := h
    rwa [(toLower_eq_iff hx).1 heq] at hc
  · intro h
    exact ⟨x, h, (toLower_eq_iff hx).2 rfl⟩

section

variable {p : Char → Bool} (hp : ∀ c, p c.toLower = p c) (t : Text)

include hp

/-- A class without case holds as long in small letters, -/
theorem takeWhile_asciiLower :
    t.asciiLower.takeWhile p = asciiLower (t.takeWhile p) := by
  unfold asciiLower
  rw [List.takeWhile_map, show p ∘ Char.toLower = p from funext hp]

/-- and leaves the same behind it. -/
theorem dropWhile_asciiLower :
    t.asciiLower.dropWhile p = asciiLower (t.dropWhile p) := by
  unfold asciiLower
  rw [List.dropWhile_map, show p ∘ Char.toLower = p from funext hp]

end

/-- Trimming the end is no matter of case, -/
theorem trimEnd_asciiLower (t : Text) :
    t.asciiLower.trimEnd = asciiLower t.trimEnd := by
  induction t with
  | nil => rfl
  | cons c t ih =>
    show trimEnd (c.toLower :: asciiLower t) = _
    rw [trimEnd, trimEnd, ih, isBlank_toLower]
    cases trimEnd t with
    | nil => cases isBlank c <;> rfl
    | cons d kept => rfl

/-- nor is trimming both. -/
theorem trim_asciiLower (t : Text) : t.asciiLower.trim = asciiLower t.trim := by
  unfold trim trimStart
  rw [dropWhile_asciiLower isBlank_toLower, trimEnd_asciiLower]

/-- Lowering cuts no line and joins none. -/
theorem lines_asciiLower (t : Text) :
    t.asciiLower.lines = t.lines.map asciiLower := by
  induction t with
  | nil => rfl
  | cons c t ih =>
    show lines (c.toLower :: asciiLower t) = _
    have hfeed : c.toLower = '\n' ↔ c = '\n' := toLower_eq_iff (by decide)
    rw [lines, lines, ih]
    by_cases hc : c = '\n'
    · rw [if_pos hc, if_pos (hfeed.2 hc), hc]
      rfl
    · rw [if_neg hc, if_neg (fun h => hc (hfeed.1 h))]
      cases lines t with
      | nil => rfl
      | cons line more => rfl

end Text

end ComponentMarkdown
