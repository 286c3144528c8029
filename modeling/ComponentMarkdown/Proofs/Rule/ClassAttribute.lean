/-
Class attributes, read behind the blank before them. A value is read with
its equals sign and the blanks around it (`ClassValue.ofText?_quoted`). A
name that goes on is another name (`ClassUse.goes_on`), and one that neither
goes on nor has a value stands for itself (`ClassUse.ends`). Classes that can
be merged into a container hold no double quote
(`ClassUse.not_mem_of_static?`).
-/
import ComponentMarkdown.Proofs.Markup.Quoted
import ComponentMarkdown.Rule.ClassAttribute

namespace ComponentMarkdown

open Markup

-- ============================================================== values

namespace ClassValue

/-- The value at the head of a text, behind the equals sign and blanks. -/
def behindEquals? (lead : Text) : Text → Option (Hit ClassValue)
  | '"' :: inside =>
    (through? '"' inside).map fun t =>
      ⟨lead ++ '"' :: t, .doubleQuoted t.dropLast⟩
  | '\'' :: inside =>
    (through? '\'' inside).map fun t =>
      ⟨lead ++ '\'' :: t, .singleQuoted t.dropLast⟩
  | '{' :: _ => some ⟨lead ++ ['{'], .expression⟩
  | _ => none

/-- A value stands behind an equals sign, blanks around it. -/
theorem ofText?_eq (s : Text) :
    ofText? s
      = match s.dropWhile isBlank with
        | '=' :: rest =>
          behindEquals? (s.takeWhile isBlank ++ '=' :: rest.takeWhile isBlank)
            (rest.dropWhile isBlank)
        | _ => none := rfl

/-- A value starts with a quote or a brace. -/
theorem behindEquals?_of_ne {c : Char}
    (hc : c ≠ '"' ∧ c ≠ '\'' ∧ c ≠ '{') (lead s : Text) :
    behindEquals? lead (c :: s) = none := by
  unfold behindEquals?
  split
  · rename_i heq
    exact absurd (List.cons.inj heq).1 hc.1
  · rename_i heq
    exact absurd (List.cons.inj heq).1 hc.2.1
  · rename_i heq
    exact absurd (List.cons.inj heq).1 hc.2.2
  · rfl

/-- What stands behind an equals sign, with blanks on either side of it, is
read there. -/
theorem ofText?_equals {before after s : Text}
    (hbefore : ∀ c ∈ before, isBlank c = true)
    (hafter : ∀ c ∈ after, isBlank c = true)
    (hs : ∀ c ∈ s.head?, isBlank c = false) :
    ofText? (before ++ '=' :: (after ++ s))
      = behindEquals? (before ++ '=' :: after) s := by
  have hequals : isBlank '=' = false := by decide
  have hvalue : (after ++ s).takeWhile isBlank = after
      ∧ (after ++ s).dropWhile isBlank = s := by
    rw [List.dropWhile_append_of_pos hafter,
      List.takeWhile_append_of_pos hafter]
    cases s with
    | nil => exact ⟨List.append_nil _, rfl⟩
    | cons c s =>
      have hc := hs c rfl
      rw [List.dropWhile_cons_of_neg (by rw [hc]; decide),
        List.takeWhile_cons_of_neg (by rw [hc]; decide), List.append_nil]
      exact ⟨rfl, rfl⟩
  rw [ofText?_eq, List.dropWhile_append_of_pos hbefore,
    List.takeWhile_append_of_pos hbefore,
    List.dropWhile_cons_of_neg (by rw [hequals]; decide),
    List.takeWhile_cons_of_neg (by rw [hequals]; decide), List.append_nil]
  show behindEquals? (before ++ '=' :: (after ++ s).takeWhile isBlank)
    ((after ++ s).dropWhile isBlank) = _
  rw [hvalue.1, hvalue.2]

/-- A value is read with its equals sign and the blanks around it. -/
theorem ofText?_quoted {before after : Text}
    (hbefore : ∀ c ∈ before, isBlank c = true)
    (hafter : ∀ c ∈ after, isBlank c = true) {q : Char}
    (hq : isQuote q = true) {text : Text} (htext : q ∉ text) (s : Text) :
    ofText? (before ++ '=' :: (after ++ q :: (text ++ q :: s)))
      = some ⟨before ++ '=' :: (after ++ q :: (text ++ [q])),
        if q = '"' then .doubleQuoted text else .singleQuoted text⟩ := by
  have hthrough := through?_of_not_mem htext s
  have hlead : before ++ '=' :: after ++ q :: (text ++ [q])
      = before ++ '=' :: (after ++ q :: (text ++ [q])) := by simp
  have hhead : ∀ c ∈ (q :: (text ++ q :: s)).head?, isBlank c = false := by
    intro c hc
    cases hc
    exact isBlank_of_isQuote hq
  rw [ofText?_equals hbefore hafter hhead]
  rcases isQuote_iff.1 hq with rfl | rfl
  · show (through? '"' (text ++ '"' :: s)).map _ = _
    rw [hthrough, Option.map_some, List.dropLast_concat, hlead]
    rfl
  · show (through? '\'' (text ++ '\'' :: s)).map _ = _
    rw [hthrough, Option.map_some, List.dropLast_concat, hlead]
    rfl

/-- Without quotes and braces, nothing is read. -/
theorem ofText?_unquoted {before after s : Text} {c : Char}
    (hbefore : ∀ c ∈ before, isBlank c = true)
    (hafter : ∀ c ∈ after, isBlank c = true) (hblank : isBlank c = false)
    (hc : c ≠ '"' ∧ c ≠ '\'' ∧ c ≠ '{') :
    ofText? (before ++ '=' :: (after ++ c :: s)) = none := by
  have hhead : ∀ d ∈ (c :: s).head?, isBlank d = false := by
    intro d hd
    cases hd
    exact hblank
  rw [ofText?_equals hbefore hafter hhead, behindEquals?_of_ne hc]

/-- A double-quoted value holds no double quote. -/
theorem not_mem_of_doubleQuoted {s v : Text} {h : Hit ClassValue}
    (hs : ofText? s = some h) (hv : h.value = .doubleQuoted v) : '"' ∉ v := by
  rw [ofText?_eq] at hs
  split at hs
  · unfold behindEquals? at hs
    split at hs
    · obtain ⟨t, ht, rfl⟩ := Option.map_eq_some_iff.1 hs
      obtain ⟨inner, rfl, hinner⟩ := through?_written ht
      cases hv
      rw [List.dropLast_concat]
      exact hinner
    · obtain ⟨t, -, rfl⟩ := Option.map_eq_some_iff.1 hs
      cases hv
    · cases hs
      cases hv
    · cases hs
  · cases hs

end ClassValue

namespace ClassUse

theorem passesQuoted_scanner : PassesQuoted scanner ofText? := fun _ => rfl

-- ======================================================= behind the name

/-- Where the name goes on, neither a value starts nor does the name end. -/
theorem goes_on {c : Char} (hblank : isBlank c = false)
    (hmark : c ≠ '=' ∧ c ≠ '/') (s : Text) :
    ClassValue.ofText? (c :: s) = none ∧ endsBefore (c :: s) = false := by
  constructor
  · unfold ClassValue.ofText?
    rw [List.dropWhile_cons_of_neg (by rw [hblank]; decide)]
    split
    · rename_i heq
      exact absurd (List.cons.inj heq).1 hmark.1
    · rfl
  · show (isBlank c || c == '/') = false
    rw [hblank, Bool.false_or, beq_eq_false_iff_ne]
    exact hmark.2

/-- Whether a text can follow an attribute and is no end of a tag: it is
empty or starts with a blank, and holds no value. -/
structure Continues (s : Text) : Prop where
  head : ∀ c ∈ s.head?, isBlank c = true
  value : ∀ c ∈ (s.dropWhile isBlank).head?, c ≠ '='

theorem continues_nil : Continues [] where
  head c hc := by cases hc
  value c hc := by cases hc

/-- What follows an attribute is no value, and ends the name. -/
theorem ends {s : Text} (hs : Continues s) :
    ClassValue.ofText? s = none ∧ endsBefore s = true := by
  constructor
  · unfold ClassValue.ofText?
    split
    · rename_i rest heq
      exact absurd rfl (hs.value '=' (by rw [heq]; rfl))
    · rfl
  · cases s with
    | nil => rfl
    | cons c s =>
      show (isBlank c || c == '/') = true
      rw [hs.head c rfl]
      rfl

section

variable {c : Char} {name t : Text} {bound : Bool} (hc : isBlank c = true)
  (hname : nameOf? (name ++ t) = some ⟨name, bound⟩)

include hc hname

/-- Behind the name a value is read. -/
theorem ofText?_of_value {v : Hit ClassValue}
    (hv : ClassValue.ofText? t = some v) :
    ofText? (c :: (name ++ t))
      = some ⟨c :: name ++ v.taken, ⟨bound, v.value⟩⟩ := by
  rw [ofText?, if_pos hc, hname]
  dsimp only
  rw [List.drop_left, hv]

/-- Without a value the name has to end. -/
theorem ofText?_of_no_value (hv : ClassValue.ofText? t = none) :
    ofText? (c :: (name ++ t))
      = if endsBefore t then some ⟨c :: name, ⟨bound, .bare⟩⟩ else none := by
  rw [ofText?, if_pos hc, hname]
  dsimp only
  rw [List.drop_left, hv]

end

-- ====================================================== merged classes

/-- Classes that can be merged hold no double quote. -/
theorem not_mem_of_static? {s classes : Text} {h : Hit ClassUse}
    (hs : ofText? s = some h) (hstatic : h.value.static? = some classes) :
    '"' ∉ classes := by
  have hvalue : ∀ v, h.value.value = .doubleQuoted v → '"' ∉ v := by
    intro v hv
    cases s with
    | nil => cases hs
    | cons c rest =>
      rw [ofText?] at hs
      split at hs
      · split at hs
        · cases hs
        · dsimp only at hs
          split at hs
          · rename_i r hr
            cases hs
            exact ClassValue.not_mem_of_doubleQuoted hr hv
          · split at hs
            · cases hs
              cases hv
            · cases hs
      · cases hs
  unfold static? at hstatic
  split at hstatic
  · cases hstatic
  · split at hstatic
    · cases hstatic
      exact List.not_mem_nil
    · rename_i v hv
      cases hstatic
      exact hvalue _ hv
    · split at hstatic
      · cases hstatic
      · rename_i hnot
        cases hstatic
        exact hnot
    · cases hstatic

end ClassUse

/-- A piece that is a character is no class attribute. -/
theorem ClassAttribute.use?_of_mem_chars {t : Text}
    {p : Piece (Option ClassUse)} (hp : p ∈ t.map .char) :
    use? p = none := by
  obtain ⟨c, -, rfl⟩ := List.mem_map.1 hp
  rfl

end ComponentMarkdown
