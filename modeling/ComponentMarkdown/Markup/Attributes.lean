/-
The attributes of a tag whose name is already read, up to the first place
outside quoted values where the tag can end.

What counts as an end is a parameter: the closing `/>` alone, or `>` as
well. Attributes either start with a blank or are empty; they hold neither
`<` nor `>` outside quoted values, and a quoted value that is never closed
makes the whole attempt fail.
-/
import ComponentMarkdown.Splice

namespace ComponentMarkdown.Markup

-- ================================================== the end of a tag

/-- `/>`, and the blanks before it. -/
def selfClose? (s : Text) : Option Text :=
  match s.dropWhile isBlank with
  | '/' :: '>' :: _ => some (s.takeWhile isBlank ++ ['/', '>'])
  | _ => none

theorem selfClose?_isPrefix {s t : Text} (h : selfClose? s = some t) :
    t <+: s := by
  unfold selfClose? at h
  split at h
  · rename_i rest hr
    cases h
    refine ⟨rest, ?_⟩
    rw [List.append_assoc]
    show s.takeWhile isBlank ++ ('/' :: '>' :: rest) = s
    rw [← hr, List.takeWhile_append_dropWhile]
  · cases h

-- ======================================================= the attributes

/-- The characters before the first end of the tag, and that end. With a
quote given, the reader stands inside a quoted value that ends there. -/
def attributesUntil {β : Type} (stop : Text → Option (Hit β)) :
    Option Char → Text → Option (Text × Hit β)
  | _, [] => none
  | some quote, c :: rest =>
    (attributesUntil stop (if c = quote then none else some quote) rest).map
      fun r => (c :: r.1, r.2)
  | none, c :: rest =>
    match stop (c :: rest) with
    | some h => some ([], h)
    | none =>
      if c = '<' ∨ c = '>' then none
      else
        (attributesUntil stop
          (if c = '"' ∨ c = '\'' then some c else none) rest).map
          fun r => (c :: r.1, r.2)

/-- The attributes of a tag, read behind its name, and the end of the
tag. -/
def attributes? {β : Type} (stop : Text → Option (Hit β)) (s : Text) :
    Option (Text × Hit β) :=
  match s with
  | [] => none
  | c :: rest =>
    if isBlank c then
      (attributesUntil stop none rest).map fun r => (c :: r.1, r.2)
    else (stop (c :: rest)).map fun h => ([], h)

section

variable {β : Type} {stop : Text → Option (Hit β)}

theorem attributesUntil_isPrefix
    (hstop : ∀ {s h}, stop s = some h → h.taken <+: s)
    {quote : Option Char} {s a : Text} {h : Hit β}
    (hs : attributesUntil stop quote s = some (a, h)) :
    a ++ h.taken <+: s := by
  induction s generalizing quote a with
  | nil => simp [attributesUntil] at hs
  | cons c s ih =>
    cases quote with
    | some q =>
      simp only [attributesUntil] at hs
      obtain ⟨r, hr, he⟩ := Option.map_eq_some_iff.1 hs
      cases he
      exact List.cons_prefix_cons.2 ⟨rfl, ih hr⟩
    | none =>
      simp only [attributesUntil] at hs
      split at hs
      · rename_i g hg
        cases hs
        exact hstop hg
      · split at hs
        · cases hs
        · obtain ⟨r, hr, he⟩ := Option.map_eq_some_iff.1 hs
          cases he
          exact List.cons_prefix_cons.2 ⟨rfl, ih hr⟩

theorem attributes?_isPrefix
    (hstop : ∀ {s h}, stop s = some h → h.taken <+: s)
    {s a : Text} {h : Hit β} (hs : attributes? stop s = some (a, h)) :
    a ++ h.taken <+: s := by
  cases s with
  | nil => simp [attributes?] at hs
  | cons c s =>
    simp only [attributes?] at hs
    split at hs
    · obtain ⟨r, hr, he⟩ := Option.map_eq_some_iff.1 hs
      cases he
      exact List.cons_prefix_cons.2 ⟨rfl, attributesUntil_isPrefix hstop hr⟩
    · obtain ⟨g, hg, he⟩ := Option.map_eq_some_iff.1 hs
      cases he
      exact hstop hg

end

end ComponentMarkdown.Markup
