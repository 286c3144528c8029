/-
JSON read back. A text is read as its tokens, from left to right: strings,
whole numbers, truth values and the marks between them (`Reads`). It is read
in one way at most (`Reads.unique`), and a string that the program writes is
read as what it was written for (`Reads.string`), whatever characters it
holds; none of them ends the line (`not_mem_quoted`).

The reader knows all escapes of JSON and refuses control characters in a
string, so it is not the writer turned round.
-/
import ComponentMarkdown.Json.Quoted

namespace ComponentMarkdown.Json

-- ============================================================== tokens

/-- A token of JSON. -/
inductive Token where
  | mark (c : Char)
  | string (s : Text)
  | number (n : Nat)
  | bool (b : Bool)
  deriving DecidableEq, Repr

/-- The marks between the values. -/
def marks : List Char := ['\x7b', '\x7d', ':', ',']

/-- The character that a letter behind a backslash stands for. -/
def letter? (c : Char) : Option Char :=
  if c = '"' then some '"'
  else if c = '\\' then some '\\'
  else if c = '/' then some '/'
  else if c = 'b' then some '\x08'
  else if c = 'f' then some '\x0c'
  else if c = 'n' then some '\n'
  else if c = 'r' then some '\r'
  else if c = 't' then some '\t'
  else none

/-- A string behind its opening quote: what it spells, and what follows its
closing quote. -/
def string? : Text → Option (Text × Text)
  | [] => none
  | '\\' :: 'u' :: a :: b :: c :: d :: rest =>
    ((hexNumber? [a, b, c, d]).bind charOf?).bind fun x =>
      (string? rest).map fun r => (x :: r.1, r.2)
  | '\\' :: c :: rest =>
    (letter? c).bind fun x => (string? rest).map fun r => (x :: r.1, r.2)
  | c :: rest =>
    if c = '"' then some ([], rest)
    else if c = '\\' ∨ c.toNat < 32 then none
    else (string? rest).map fun r => (c :: r.1, r.2)

/-- The token at the head of a text, and what follows it. -/
def token? : Text → Option (Token × Text)
  | '"' :: rest => (string? rest).map fun r => (.string r.1, r.2)
  | 't' :: 'r' :: 'u' :: 'e' :: rest => some (.bool true, rest)
  | 'f' :: 'a' :: 'l' :: 's' :: 'e' :: rest => some (.bool false, rest)
  | c :: rest =>
    if c ∈ marks then some (.mark c, rest)
    else if c.isDigit then
      some (.number (Nat.ofDigitChars 10 (c :: rest.takeWhile Char.isDigit) 0),
        rest.dropWhile Char.isDigit)
    else none
  | [] => none

/-- Whether a text is made of some tokens. -/
inductive Reads : Text → List Token → Prop
  | nil : Reads [] []
  | cons {s rest : Text} {token : Token} {tokens : List Token}
      (h : token? s = some (token, rest)) (hrest : Reads rest tokens) :
      Reads s (token :: tokens)

/-- A text is read in one way. -/
theorem Reads.unique {s : Text} {tokens tokens' : List Token}
    (h : Reads s tokens) (h' : Reads s tokens') : tokens = tokens' := by
  induction h generalizing tokens' with
  | nil =>
    cases h' with
    | nil => rfl
    | cons hnil => cases hnil
  | cons hs _ ih =>
    cases h' with
    | nil => cases hs
    | cons hs' hrest' =>
      rw [hs] at hs'
      cases hs'
      rw [ih hrest']

/-- A mark is read. -/
theorem Reads.mark {c : Char} (hc : c ∈ marks) {rest : Text}
    {tokens : List Token} (h : Reads rest tokens) :
    Reads (c :: rest) (.mark c :: tokens) := by
  refine .cons ?_ h
  unfold marks at hc
  simp only [List.mem_cons, List.not_mem_nil, or_false] at hc
  rcases hc with rfl | rfl | rfl | rfl <;> rfl

-- ============================================================= strings

/-- The characters that are written as a backslash and a sign. -/
def signed : List Char := ['"', '\\', '\x08', '\x0c', '\n', '\r', '\t']

theorem forall_mem_signed {p : Char → Prop} :
    (∀ c ∈ signed, p c) ↔ p '"' ∧ p '\\' ∧ p '\x08' ∧ p '\x0c' ∧ p '\n'
      ∧ p '\r' ∧ p '\t' := by
  simp [signed]

/-- How all others are written. -/
theorem escape_of_not_mem {c : Char} (h : c ∉ signed) :
    escape c = if c.toNat < 32 then
        ['\\', 'u', '0', '0', hexDigit (c.toNat / 16), hexDigit (c.toNat % 16)]
      else [c] := by
  unfold signed at h
  simp only [List.mem_cons, List.not_mem_nil, or_false, not_or] at h
  unfold escape
  simp only [h, if_false]

theorem charOf?_toNat (c : Char) : charOf? c.toNat = some c := by
  have hvalid : c.toNat.isValidChar := c.valid
  unfold charOf?
  rw [dif_pos hvalid]
  rfl

/-- The number of a control character, as it is written. -/
theorem hexNumber?_control {n : Nat} (h : n < 32) :
    hexNumber? ['0', '0', hexDigit (n / 16), hexDigit (n % 16)] = some n := by
  have hzero : hexValue? '0' = some 0 := by decide
  have hhigh := hexValue?_hexDigit (show n / 16 < 16 by omega)
  have hlow := hexValue?_hexDigit (show n % 16 < 16 by omega)
  unfold hexNumber?
  simp [hzero, hhigh, hlow]
  omega

/-- A character is read from what it is written as. -/
theorem string?_escape (c : Char) (rest : Text) :
    string? (escape c ++ rest)
      = (string? rest).map fun r => (c :: r.1, r.2) := by
  by_cases hsigned : c ∈ signed
  · revert c
    rw [forall_mem_signed]
    exact ⟨rfl, rfl, rfl, rfl, rfl, rfl, rfl⟩
  · rw [escape_of_not_mem hsigned]
    have hquote : c ≠ '"' := by
      rintro rfl
      exact hsigned (by decide)
    have hslash : c ≠ '\\' := by
      rintro rfl
      exact hsigned (by decide)
    split
    · rename_i hcontrol
      simp only [List.cons_append, List.nil_append]
      rw [string?, hexNumber?_control hcontrol, Option.bind_some,
        charOf?_toNat]
      rfl
    · rename_i hcontrol
      rw [List.singleton_append, string?, if_neg hquote,
        if_neg (not_or.2 ⟨hslash, hcontrol⟩)]
      · exact fun _ _ _ _ _ heq => absurd heq hslash
      · exact fun _ _ heq => absurd heq hslash

/-- An escaped text is read back as the text. -/
theorem string?_flatMap_escape (s rest : Text) :
    string? (s.flatMap escape ++ '"' :: rest) = some (s, rest) := by
  induction s with
  | nil => rfl
  | cons c s ih =>
    rw [List.flatMap_cons, List.append_assoc, string?_escape, ih]
    rfl

theorem toList_quoted (s : String) :
    (quoted s).toList = '"' :: (s.toList.flatMap escape ++ ['"']) := by
  simp [quoted]

/-- A string is read as what it was written for. -/
theorem Reads.string (s : String) {rest : Text} {tokens : List Token}
    (h : Reads rest tokens) :
    Reads ((quoted s).toList ++ rest) (.string s.toList :: tokens) := by
  refine .cons ?_ h
  rw [toList_quoted, List.cons_append, List.append_assoc, token?,
    List.singleton_append, string?_flatMap_escape]
  rfl

/-- What a string is written with does not end the line. -/
theorem not_mem_quoted (s : String) : '\n' ∉ (quoted s).toList := by
  have hdigit (n : Nat) (hn : n < 16) : '\n' ≠ hexDigit n := by
    have hall : ∀ k : Fin 16, '\n' ≠ hexDigit k := by decide
    exact hall ⟨n, hn⟩
  have hescape (c : Char) : '\n' ∉ escape c := by
    by_cases hsigned : c ∈ signed
    · revert c
      rw [forall_mem_signed]
      decide
    · rw [escape_of_not_mem hsigned]
      split
      · have hhigh := hdigit (c.toNat / 16) (by omega)
        have hlow := hdigit (c.toNat % 16) (by omega)
        simp [hhigh, hlow]
      · rintro hmem
        rw [List.mem_singleton] at hmem
        subst hmem
        exact hsigned (by decide)
  rw [toList_quoted]
  simp [hescape]

-- ============================================================= numbers

/-- A number is written in digits. -/
theorem isDigit_of_mem_toString {n : Nat} {c : Char}
    (h : c ∈ (toString n).toList) : c.isDigit = true := by
  have hwritten : (toString n).toList = Nat.toDigits 10 n := Nat.toList_repr
  rw [hwritten] at h
  exact Nat.isDigit_of_mem_toDigits (by decide) (by decide) h

/-- Nor does what a number is written with. -/
theorem not_mem_toString (n : Nat) : '\n' ∉ (toString n).toList :=
  fun h => absurd (isDigit_of_mem_toString h) (by decide)

theorem token?_digit {c : Char} (hc : c.isDigit = true) (rest : Text) :
    token? (c :: rest)
      = some (.number
          (Nat.ofDigitChars 10 (c :: rest.takeWhile Char.isDigit) 0),
        rest.dropWhile Char.isDigit) := by
  have hmark : c ∉ marks := by
    intro hmem
    unfold marks at hmem
    simp only [List.mem_cons, List.not_mem_nil, or_false] at hmem
    rcases hmem with rfl | rfl | rfl | rfl <;> cases hc
  rw [token?, if_neg hmark, if_pos hc]
  · rintro rfl
    cases hc
  · rintro _ rfl
    cases hc
  · rintro _ rfl
    cases hc

/-- A number is read as what it was written for, if no digit follows. -/
theorem Reads.number (n : Nat) {rest : Text} {tokens : List Token}
    (hrest : ∀ c ∈ rest.head?, c.isDigit = false) (h : Reads rest tokens) :
    Reads ((toString n).toList ++ rest) (.number n :: tokens) := by
  refine .cons ?_ h
  have hwritten : (toString n).toList = Nat.toDigits 10 n := Nat.toList_repr
  have hdigits : ∀ c ∈ Nat.toDigits 10 n, c.isDigit = true := fun c hc =>
    isDigit_of_mem_toString (hwritten ▸ hc)
  have hvalue : Nat.ofDigitChars 10 (Nat.toDigits 10 n) 0 = n :=
    Nat.ofDigitChars_toDigits (by decide) (by decide)
  have htake : rest.takeWhile Char.isDigit = [] := by
    cases rest with
    | nil => rfl
    | cons c rest => exact List.takeWhile_cons_of_neg (by simp [hrest c rfl])
  have hdrop : rest.dropWhile Char.isDigit = rest := by
    cases rest with
    | nil => rfl
    | cons c rest => exact List.dropWhile_cons_of_neg (by simp [hrest c rfl])
  rw [hwritten]
  cases htext : Nat.toDigits 10 n with
  | nil => exact absurd htext Nat.toDigits_ne_nil
  | cons d ds =>
    rw [htext] at hdigits hvalue
    obtain ⟨hd, hds⟩ := List.forall_mem_cons.1 hdigits
    rw [List.cons_append, token?_digit hd,
      List.takeWhile_append_of_pos hds, htake, List.append_nil, hvalue,
      List.dropWhile_append_of_pos hds, hdrop]

end ComponentMarkdown.Json
