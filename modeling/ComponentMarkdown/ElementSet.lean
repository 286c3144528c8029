/-
Custom elements: the tag names that the template compiler has to accept as
they are. Names are kept in kebab case, so `CardGroup` and `card-group`
name the same element, and a set lists them in order without repetition.
-/
import ComponentMarkdown.Text.Basic

namespace ComponentMarkdown

-- ========================================================= kebab case

/-- Kebab case of a text, where the character before it is a small letter
or digit or not. -/
def kebabFrom (afterSmall : Bool) : Text → Text
  | [] => []
  | c :: rest =>
    if c.isUpper then
      let tail := c.toLower :: kebabFrom false rest
      if afterSmall then '-' :: tail else tail
    else c :: kebabFrom (c.isLower || c.isDigit) rest

/-- The kebab case of a tag name: capitals become small, with a hyphen
before each that follows a small letter or digit. A name in kebab case
stays as it is. -/
def kebabCase (tag : Text) : Text := kebabFrom false tag

-- =============================================================== sets

namespace ElementSet

/-- Adds a name to an ascending list, unless it is there. -/
def insertName (name : String) : List String → List String
  | [] => [name]
  | key :: rest =>
    if name < key then name :: key :: rest
    else if name = key then key :: rest
    else key :: insertName name rest

theorem mem_insertName {name e : String} {l : List String} :
    e ∈ insertName name l ↔ e = name ∨ e ∈ l := by
  induction l with
  | nil => simp [insertName]
  | cons key rest ih =>
    simp only [insertName]
    split
    · simp
    · split
      · rename_i hk
        simp [hk]
      · simp only [List.mem_cons, ih]
        constructor
        · rintro (h | h | h)
          · exact Or.inr (Or.inl h)
          · exact Or.inl h
          · exact Or.inr (Or.inr h)
        · rintro (h | h | h)
          · exact Or.inr (Or.inl h)
          · exact Or.inl h
          · exact Or.inr (Or.inr h)

theorem insertName_ascending {name : String} {l : List String}
    (h : l.Pairwise (· < ·)) : (insertName name l).Pairwise (· < ·) := by
  induction l with
  | nil => simp [insertName]
  | cons key rest ih =>
    obtain ⟨hkey, hrest⟩ := List.pairwise_cons.1 h
    simp only [insertName]
    split
    · rename_i hlt
      refine List.pairwise_cons.2 ⟨fun e he => ?_, h⟩
      rcases List.mem_cons.1 he with rfl | he
      · exact hlt
      · exact String.lt_trans hlt (hkey e he)
    · split
      · exact h
      · rename_i hlt hne
        refine List.pairwise_cons.2 ⟨fun e he => ?_, ih hrest⟩
        rcases mem_insertName.1 he with rfl | he
        · exact Std.lt_of_le_of_ne (String.not_lt.1 hlt) (Ne.symm hne)
        · exact hkey e he

end ElementSet

/-- A set of element names in kebab case, in ascending order. -/
structure ElementSet where
  names : List String
  ascending : names.Pairwise (· < ·)

namespace ElementSet

/-- No elements. -/
def empty : ElementSet := ⟨[], List.Pairwise.nil⟩

/-- Adds one name, without the blanks around it; a blank name is passed
over. -/
def add (s : ElementSet) (name : String) : ElementSet :=
  match kebabCase (Text.trim name.toList) with
  | [] => s
  | kebab =>
    ⟨insertName (String.ofList kebab) s.names,
      insertName_ascending s.ascending⟩

/-- Adds names. -/
def extend (s : ElementSet) (names : List String) : ElementSet :=
  names.foldl add s

/-- The set of some names. -/
def ofNames (names : List String) : ElementSet := empty.extend names

/-- Whether a tag, in either spelling, names an element of the set. -/
def contains (s : ElementSet) (tag : String) : Bool :=
  s.names.contains (String.ofList (kebabCase tag.toList))

/-- The components that reach the template compiler as they are. -/
def builtin : ElementSet :=
  ofNames
    ["card", "card-group", "columns", "steps", "step", "note", "tip",
     "info", "warning", "check", "tabs", "tab", "accordion",
     "accordion-group", "frame", "code-group", "developer"]

end ElementSet

end ComponentMarkdown
