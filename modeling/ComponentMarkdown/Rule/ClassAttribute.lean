/-
The `class` attribute among the attributes of a tag, as far as another
class can be merged into it: it must be static, stand alone, and hold no
double quote, since the merged class is written in double quotes.

An attribute whose name only begins with `class` is a different one.
-/
import ComponentMarkdown.Markup.Quoted

namespace ComponentMarkdown

open Markup

-- =================================================== one class attribute

/-- What follows the name of a class attribute. -/
inductive ClassValue where
  /-- Nothing, or nothing that is read as a value. -/
  | bare
  | doubleQuoted (value : Text)
  | singleQuoted (value : Text)
  /-- The brace that starts an expression. -/
  | expression
  deriving DecidableEq, Repr

/-- A class attribute: bound by a prefix or not, and its value. -/
structure ClassUse where
  bound : Bool
  value : ClassValue
  deriving DecidableEq, Repr

namespace ClassValue

/-- The characters of a value, and what it is: an equals sign, with blanks
on either side, and a quoted value or an opening brace. -/
def ofText? (s : Text) : Option (Hit ClassValue) :=
  match s.dropWhile isBlank with
  | '=' :: rest =>
    let lead := s.takeWhile isBlank ++ '=' :: rest.takeWhile isBlank
    match rest.dropWhile isBlank with
    | '"' :: inside =>
      (through? '"' inside).map fun t =>
        ⟨lead ++ '"' :: t, .doubleQuoted t.dropLast⟩
    | '\'' :: inside =>
      (through? '\'' inside).map fun t =>
        ⟨lead ++ '\'' :: t, .singleQuoted t.dropLast⟩
    | '{' :: _ => some ⟨lead ++ ['{'], .expression⟩
    | _ => none
  | _ => none

theorem ofText?_isPrefix {s : Text} {h : Hit ClassValue}
    (hs : ofText? s = some h) : h.taken <+: s := by
  have hpre {rest x y : Text} (hr : s.dropWhile isBlank = '=' :: rest)
      (hd : rest.dropWhile isBlank = x) (hy : y <+: x) :
      s.takeWhile isBlank ++ '=' :: rest.takeWhile isBlank ++ y <+: s := by
    have h₁ := List.takeWhile_append_dropWhile (p := isBlank) (l := s)
    have h₂ := List.takeWhile_append_dropWhile (p := isBlank) (l := rest)
    conv => rhs; rw [← h₁, hr, ← h₂, hd]
    rw [List.append_assoc]
    exact (List.prefix_append_right_inj _).2 (List.cons_prefix_cons.2
      ⟨rfl, (List.prefix_append_right_inj _).2 hy⟩)
  unfold ofText? at hs
  split at hs
  · rename_i rest hr
    simp only at hs
    split at hs
    · rename_i inside hd
      obtain ⟨t, ht, rfl⟩ := Option.map_eq_some_iff.1 hs
      exact hpre hr hd (List.cons_prefix_cons.2 ⟨rfl, through?_isPrefix ht⟩)
    · rename_i inside hd
      obtain ⟨t, ht, rfl⟩ := Option.map_eq_some_iff.1 hs
      exact hpre hr hd (List.cons_prefix_cons.2 ⟨rfl, through?_isPrefix ht⟩)
    · rename_i inside hd
      cases hs
      exact hpre hr hd (List.cons_prefix_cons.2 ⟨rfl, List.nil_prefix⟩)
    · cases hs
  · cases hs

end ClassValue

namespace ClassUse

/-- The spellings of the name, and whether they bind it. -/
def spellings : List (Text × Bool) :=
  [(":class".toList, true), ("v-bind:class".toList, true),
   ("class".toList, false)]

/-- Whether an attribute name can end in front of the text. -/
def endsBefore : Text → Bool
  | [] => true
  | c :: _ => isBlank c || c == '/'

/-- The name of a class attribute, and what follows it. -/
def nameOf? (s : Text) : Option (Hit Bool) :=
  (spellings.find? fun p => p.1.isPrefixOf s).map fun p => ⟨p.1, p.2⟩

/-- The class attribute at the head of a text, the blank before it
included. Without a value its name must end there. -/
def ofText? : Text → Option (Hit ClassUse)
  | [] => none
  | c :: rest =>
    if isBlank c then
      match nameOf? rest with
      | none => none
      | some name =>
        let after := rest.drop name.taken.length
        match ClassValue.ofText? after with
        | some v => some ⟨c :: name.taken ++ v.taken, ⟨name.value, v.value⟩⟩
        | none =>
          if endsBefore after then
            some ⟨c :: name.taken, ⟨name.value, .bare⟩⟩
          else none
    else none

theorem nameOf?_isPrefix {s : Text} {h : Hit Bool}
    (hs : nameOf? s = some h) : h.taken <+: s := by
  obtain ⟨p, hp, rfl⟩ := Option.map_eq_some_iff.1 hs
  exact List.isPrefixOf_iff_prefix.1 (List.find?_some
    (p := fun q : Text × Bool => q.1.isPrefixOf s) hp)

theorem ofText?_isPrefix {s : Text} {h : Hit ClassUse}
    (hs : ofText? s = some h) : h.taken <+: s := by
  cases s with
  | nil => simp [ofText?] at hs
  | cons c rest =>
    simp only [ofText?] at hs
    split at hs
    · split at hs
      · cases hs
      · rename_i name hn
        obtain ⟨after, rfl⟩ := nameOf?_isPrefix hn
        rw [List.drop_left] at hs
        split at hs
        · rename_i v hv
          cases hs
          exact List.cons_prefix_cons.2 ⟨rfl,
            (List.prefix_append_right_inj _).2
              (ClassValue.ofText?_isPrefix hv)⟩
        · split at hs
          · cases hs
            exact List.cons_prefix_cons.2 ⟨rfl, ⟨after, rfl⟩⟩
          · cases hs
    · cases hs

theorem taken_ne_nil {s : Text} {h : Hit ClassUse}
    (hs : ofText? s = some h) : h.taken ≠ [] := by
  cases s with
  | nil => simp [ofText?] at hs
  | cons c rest =>
    simp only [ofText?] at hs
    split at hs
    · split at hs
      · cases hs
      · split at hs
        · cases hs
          simp
        · split at hs
          · cases hs
            simp
          · cases hs
    · cases hs

/-- Finds class attributes outside quoted values. -/
def scanner : Scanner (Option ClassUse) :=
  skippingQuoted ofText? taken_ne_nil ofText?_isPrefix

/-- The classes of an attribute that another class can be merged into. -/
def static? (u : ClassUse) : Option Text :=
  if u.bound then none
  else
    match u.value with
    | .bare => some []
    | .doubleQuoted v => some v
    | .singleQuoted v => if '"' ∈ v then none else some v
    | .expression => none

end ClassUse

-- ================================================== among attributes

/-- What the attributes of a tag say about its class. -/
inductive ClassAttribute where
  | absent
  /-- One static class attribute: its classes, and the other attributes
  without it. -/
  | static (classes : Text) (others : Text)
  /-- Bound, given by an expression, repeated, or not writable in double
  quotes. -/
  | unmergeable
  deriving DecidableEq, Repr

namespace ClassAttribute

/-- The class attribute that a piece of the attributes holds. -/
def use? (p : Piece (Option ClassUse)) : Option ClassUse := p.value?.join

/-- The class attribute in the attributes of a tag. -/
def ofAttributes (attributes : Text) : ClassAttribute :=
  let pieces := ClassUse.scanner.pieces attributes
  match pieces.filterMap use? with
  | [] => .absent
  | [u] =>
    match u.static? with
    | some classes =>
      .static classes
        ((pieces.filter fun p => (use? p).isNone).flatMap Piece.text)
    | none => .unmergeable
  | _ => .unmergeable

end ClassAttribute

end ComponentMarkdown
