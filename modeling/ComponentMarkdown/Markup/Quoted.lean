/-
Quoted values, as attributes hold them: from a quote to the next quote of
the same kind, with nothing escaped in between.

Every pattern over the inside of a tag tries a quoted value first, so text
inside quotes that looks like an attribute is passed over.
-/
import ComponentMarkdown.Splice

namespace ComponentMarkdown.Markup

/-- A character that starts a quoted value, and ends it. -/
def isQuote (c : Char) : Bool := c == '"' || c == '\''

/-- The text through the first occurrence of a character. -/
def through? (close : Char) : Text → Option Text
  | [] => none
  | c :: rest =>
    if c = close then some [c] else (through? close rest).map (c :: ·)

theorem through?_isPrefix {close : Char} {s t : Text}
    (h : through? close s = some t) : t <+: s := by
  induction s generalizing t with
  | nil => simp [through?] at h
  | cons c s ih =>
    simp only [through?] at h
    split at h
    · cases h
      exact ⟨s, rfl⟩
    · obtain ⟨u, hu, rfl⟩ := Option.map_eq_some_iff.1 h
      exact List.cons_prefix_cons.2 ⟨rfl, ih hu⟩

/-- The quoted value at the head of a text, quotes included. -/
def quoted? : Text → Option Text
  | [] => none
  | c :: rest => if isQuote c then (through? c rest).map (c :: ·) else none

theorem quoted?_ne_nil {s t : Text} (h : quoted? s = some t) : t ≠ [] := by
  cases s with
  | nil => simp [quoted?] at h
  | cons c s =>
    simp only [quoted?] at h
    split at h
    · obtain ⟨u, -, rfl⟩ := Option.map_eq_some_iff.1 h
      simp
    · cases h

theorem quoted?_isPrefix {s t : Text} (h : quoted? s = some t) : t <+: s := by
  cases s with
  | nil => simp [quoted?] at h
  | cons c s =>
    simp only [quoted?] at h
    split at h
    · obtain ⟨u, hu, rfl⟩ := Option.map_eq_some_iff.1 h
      exact List.cons_prefix_cons.2 ⟨rfl, through?_isPrefix hu⟩
    · cases h

/-- Scans for what `scan` reads, passing over quoted values, which count
as hits that read nothing. -/
def skippingQuoted {α : Type} (scan : Text → Option (Hit α))
    (ne_nil : ∀ {s h}, scan s = some h → h.taken ≠ [])
    (isPrefix : ∀ {s h}, scan s = some h → h.taken <+: s) :
    Scanner (Option α) where
  scan s :=
    match quoted? s with
    | some t => some ⟨t, none⟩
    | none => (scan s).map fun h => ⟨h.taken, some h.value⟩
  taken_ne_nil := by
    intro s h hs
    split at hs
    · rename_i t ht
      cases hs
      exact quoted?_ne_nil ht
    · obtain ⟨g, hg, rfl⟩ := Option.map_eq_some_iff.1 hs
      exact ne_nil hg
  taken_isPrefix := by
    intro s h hs
    split at hs
    · rename_i t ht
      cases hs
      exact quoted?_isPrefix ht
    · obtain ⟨g, hg, rfl⟩ := Option.map_eq_some_iff.1 hs
      exact isPrefix hg

end ComponentMarkdown.Markup
