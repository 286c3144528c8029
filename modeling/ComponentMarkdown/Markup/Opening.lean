/-
Opening tags, self-closing ones included: `<`, a letter, the rest of the
name, and after a blank anything up to `>` that is not itself markup. An
attribute value may be quoted or stand in braces, nested one level deep;
inside either, `>` does not end the tag.

The tag is recognised by a machine of five modes that reads one character
at a time and never looks back, so where a tag ends depends on its own
characters alone (`takeTag_append`).
-/
import ComponentMarkdown.Splice
import ComponentMarkdown.Text.Word

namespace ComponentMarkdown.Markup

-- ======================================================= the machine

/-- Where in a tag the reader stands. -/
inductive TagMode where
  /-- In the name. -/
  | name
  /-- Behind a slash that directly follows the name. -/
  | slash
  /-- Between or in unquoted attributes. -/
  | attributes
  /-- In a quoted value that ends with the given quote. -/
  | quoted (quote : Char)
  /-- In a brace expression. -/
  | braces
  /-- In braces within a brace expression. -/
  | nested
  deriving DecidableEq, Repr

/-- What a character does to the reader. -/
inductive TagStep where
  | stay (mode : TagMode)
  | finish
  | fail
  deriving DecidableEq, Repr

/-- A character that a tag name may hold behind its first letter. -/
def isTagNameChar (c : Char) : Bool :=
  isWordChar c || c == '.' || c == ':' || c == '-'

namespace TagMode

/-- One character further. -/
def step : TagMode → Char → TagStep
  | .name, c =>
    if isTagNameChar c then .stay .name
    else if isBlank c then .stay .attributes
    else if c = '/' then .stay .slash
    else if c = '>' then .finish
    else .fail
  | .slash, c => if c = '>' then .finish else .fail
  | .attributes, c =>
    if c = '>' then .finish
    else if c = '<' ∨ c = '}' then .fail
    else if c = '{' then .stay .braces
    else if c = '"' ∨ c = '\'' then .stay (.quoted c)
    else .stay .attributes
  | .quoted q, c => if c = q then .stay .attributes else .stay (.quoted q)
  | .braces, c =>
    if c = '{' then .stay .nested
    else if c = '}' then .stay .attributes
    else .stay .braces
  | .nested, c =>
    if c = '{' then .fail
    else if c = '}' then .stay .braces
    else .stay .nested

/-- The rest of a tag from a mode on, through its `>`. -/
def takeTag (mode : TagMode) : Text → Option Text
  | [] => none
  | c :: rest =>
    match mode.step c with
    | .finish => some [c]
    | .fail => none
    | .stay next => (takeTag next rest).map (c :: ·)

theorem takeTag_isPrefix {mode : TagMode} {s t : Text}
    (h : takeTag mode s = some t) : t <+: s := by
  induction s generalizing mode t with
  | nil => simp [takeTag] at h
  | cons c s ih =>
    simp only [takeTag] at h
    split at h
    · cases h
      exact ⟨s, rfl⟩
    · cases h
    · obtain ⟨u, hu, rfl⟩ := Option.map_eq_some_iff.1 h
      exact List.cons_prefix_cons.2 ⟨rfl, ih hu⟩

/-- A tag is read the same whatever follows it. -/
theorem takeTag_append {mode : TagMode} {s t : Text} (u : Text)
    (h : takeTag mode s = some t) : takeTag mode (s ++ u) = some t := by
  induction s generalizing mode t with
  | nil => simp [takeTag] at h
  | cons c s ih =>
    simp only [takeTag, List.cons_append] at h ⊢
    split at h
    · exact h
    · cases h
    · obtain ⟨v, hv, rfl⟩ := Option.map_eq_some_iff.1 h
      rw [ih hv]
      rfl

end TagMode

-- ======================================================== the scanner

/-- The opening tag at the head of a text. -/
def openingTag? : Text → Option Text
  | '<' :: c :: rest =>
    if c.isAlpha then (TagMode.takeTag .name rest).map ('<' :: c :: ·)
    else none
  | _ => none

theorem openingTag?_isPrefix {s t : Text} (h : openingTag? s = some t) :
    t <+: s := by
  unfold openingTag? at h
  split at h
  · split at h
    · obtain ⟨u, hu, rfl⟩ := Option.map_eq_some_iff.1 h
      exact List.cons_prefix_cons.2 ⟨rfl, List.cons_prefix_cons.2
        ⟨rfl, TagMode.takeTag_isPrefix hu⟩⟩
    · cases h
  · cases h

theorem openingTag?_ne_nil {s t : Text} (h : openingTag? s = some t) :
    t ≠ [] := by
  unfold openingTag? at h
  split at h
  · split at h
    · obtain ⟨u, -, rfl⟩ := Option.map_eq_some_iff.1 h
      simp
    · cases h
  · cases h

/-- Finds the opening tags of a text. -/
def openingTags : Scanner Unit where
  scan s := (openingTag? s).map fun t => ⟨t, ()⟩
  taken_ne_nil := by
    intro s h hs
    obtain ⟨t, ht, rfl⟩ := Option.map_eq_some_iff.1 hs
    exact openingTag?_ne_nil ht
  taken_isPrefix := by
    intro s h hs
    obtain ⟨t, ht, rfl⟩ := Option.map_eq_some_iff.1 hs
    exact openingTag?_isPrefix ht

/-- Edits every opening tag of a text, each by its own text. A tag whose
edit counts nothing stays. -/
def editOpeningTags (edit : Text → Edited) (s : Text) : Edited :=
  openingTags.splice (fun h => edit h.taken) s

end ComponentMarkdown.Markup
