/-
Text as the rest of the library sees it: a list of characters, so that a
reader of text is a recursion on a list and a law about it an induction.

Two measures matter. `byteLength` counts UTF-8 bytes, the unit in which
positions are reported; `lines` cuts after every line feed and drops
nothing, so joining the lines gives the text back (`lines_flatten`).

Blank characters are the twenty-five of the Unicode property White_Space;
trimming and every "whitespace" of the markup patterns mean exactly these.
-/
namespace ComponentMarkdown

/-- A piece of text, character by character. -/
abbrev Text := List Char

/-- Dropping from the front never makes a list longer. -/
theorem dropWhile_length_le {α : Type} (p : α → Bool) (l : List α) :
    (l.dropWhile p).length ≤ l.length :=
  (List.dropWhile_suffix p).length_le

-- ================================================== blank characters

/-- The Unicode property White_Space: twenty-five characters in ten
ranges, fixed since Unicode 6.3. -/
def isBlank (c : Char) : Bool :=
  let n := c.toNat
  (9 ≤ n && n ≤ 13) || n == 0x20 || n == 0x85 || n == 0xa0 || n == 0x1680
    || (0x2000 ≤ n && n ≤ 0x200a) || n == 0x2028 || n == 0x2029
    || n == 0x202f || n == 0x205f || n == 0x3000

namespace Text

/-- The text without the blanks it starts with. -/
def trimStart (t : Text) : Text := t.dropWhile isBlank

/-- The text without the blanks it ends with. -/
def trimEnd : Text → Text
  | [] => []
  | c :: rest =>
    match trimEnd rest with
    | [] => if isBlank c then [] else [c]
    | kept => c :: kept

/-- The text without the blanks at either end. -/
def trim (t : Text) : Text := (trimStart t).trimEnd

/-- ASCII capitals become small letters; every other character stays. -/
def asciiLower (t : Text) : Text := t.map Char.toLower

-- =========================================================== measures

/-- How many bytes the text takes in UTF-8. -/
def byteLength : Text → Nat
  | [] => 0
  | c :: rest => c.utf8Size + byteLength rest

@[simp] theorem byteLength_nil : byteLength [] = 0 := rfl

@[simp] theorem byteLength_cons (c : Char) (t : Text) :
    byteLength (c :: t) = c.utf8Size + byteLength t := rfl

@[simp] theorem byteLength_append (a b : Text) :
    byteLength (a ++ b) = byteLength a + byteLength b := by
  induction a with
  | nil => simp
  | cons c a ih => simp [ih, Nat.add_assoc]

/-- The longest beginning of the text that fits into `n` bytes. -/
def takeBytes : Nat → Text → Text
  | _, [] => []
  | n, c :: rest =>
    if c.utf8Size ≤ n then c :: takeBytes (n - c.utf8Size) rest else []

/-- What follows the longest beginning of the text that fits into `n`
bytes. -/
def dropBytes : Nat → Text → Text
  | _, [] => []
  | n, c :: rest =>
    if c.utf8Size ≤ n then dropBytes (n - c.utf8Size) rest else c :: rest

/-- The two sides of a cut are the whole text. -/
theorem takeBytes_append_dropBytes (n : Nat) (t : Text) :
    takeBytes n t ++ dropBytes n t = t := by
  induction t generalizing n with
  | nil => simp [takeBytes, dropBytes]
  | cons c rest ih =>
    by_cases h : c.utf8Size ≤ n
    · simp [takeBytes, dropBytes, h, ih]
    · simp [takeBytes, dropBytes, h]

/-- A cut at the end of a part gives that part. -/
theorem takeBytes_append (a b : Text) :
    takeBytes (byteLength a) (a ++ b) = a := by
  induction a with
  | nil =>
    cases b with
    | nil => rfl
    | cons c b =>
      have h : ¬ c.utf8Size ≤ 0 := by
        have := c.utf8Size_pos
        omega
      simp [takeBytes, h]
  | cons c a ih => simp [takeBytes, ih]

-- ============================================================== lines

/-- The lines of a text, each with the line feed that ends it; only the
last may lack one. -/
def lines : Text → List Text
  | [] => []
  | c :: rest =>
    if c = '\n' then [c] :: lines rest
    else
      match lines rest with
      | [] => [[c]]
      | line :: more => (c :: line) :: more

/-- Cutting into lines loses nothing. -/
theorem lines_flatten (t : Text) : (lines t).flatten = t := by
  induction t with
  | nil => rfl
  | cons c t ih =>
    by_cases h : c = '\n'
    · simp [lines, h, ih]
    · cases hl : lines t with
      | nil => simp [lines, h, hl] at ih ⊢; exact ih
      | cons line more => simp [lines, h, hl] at ih ⊢; exact ih

/-- A line is never empty. -/
theorem ne_nil_of_mem_lines {t line : Text} (h : line ∈ lines t) :
    line ≠ [] := by
  induction t generalizing line with
  | nil => simp [lines] at h
  | cons c t ih =>
    by_cases hc : c = '\n'
    · simp only [lines, hc, if_true, List.mem_cons] at h
      rcases h with rfl | h
      · simp
      · exact ih h
    · cases hl : lines t with
      | nil =>
        simp only [lines, hc, hl, if_false, List.mem_singleton] at h
        simp [h]
      | cons first more =>
        simp only [lines, hc, hl, if_false, List.mem_cons] at h
        rcases h with rfl | h
        · simp
        · exact ih (by rw [hl]; exact List.mem_cons_of_mem _ h)

end Text

end ComponentMarkdown
