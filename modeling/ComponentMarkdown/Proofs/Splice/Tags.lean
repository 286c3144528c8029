/-
Scanners that look for tags. Such a scanner starts at `<` and nowhere else
(`SeeksTags`), so it passes over everything but tags; a tag it takes as a
whole or, if it passes over what stands behind the `<`, not at all
(`pieces_tag`).
-/
import ComponentMarkdown.Proofs.Splice.Pieces

namespace ComponentMarkdown.Scanner

variable {α : Type} {sc : Scanner α}

/-- Whether a scanner starts at no character but `<`. -/
def SeeksTags (sc : Scanner α) : Prop :=
  ∀ c, c ≠ '<' → ∀ s, sc.scan (c :: s) = none

/-- Whether a scanner passes over a text, whatever follows it. -/
def PassesOver (sc : Scanner α) (t : Text) : Prop :=
  ∀ s, sc.pieces (t ++ s) = t.map .char ++ sc.pieces s

-- ======================================================== passing over

theorem passesOver_nil : sc.PassesOver [] := fun _ => rfl

/-- Texts that are passed over one by one are passed over together, -/
theorem PassesOver.append {a b : Text} (ha : sc.PassesOver a)
    (hb : sc.PassesOver b) : sc.PassesOver (a ++ b) := by
  intro s
  rw [List.append_assoc, ha, hb, List.map_append, List.append_assoc]

/-- however many there are. -/
theorem passesOver_flatMap {ι : Type} {write : ι → Text} {l : List ι}
    (h : ∀ x ∈ l, sc.PassesOver (write x)) :
    sc.PassesOver (l.flatMap write) := by
  induction l with
  | nil => exact passesOver_nil
  | cons x l ih =>
    obtain ⟨hx, hl⟩ := List.forall_mem_cons.1 h
    exact hx.append (ih hl)

/-- A scanner for tags passes over text without `<`. -/
theorem SeeksTags.passesOver (hsc : sc.SeeksTags) {t : Text} (ht : '<' ∉ t) :
    sc.PassesOver t :=
  sc.pieces_append_of_none fun c hc => hsc c fun heq => ht (heq ▸ hc)

/-- A class of characters without `<` is passed over. -/
theorem SeeksTags.passesOver_of_class (hsc : sc.SeeksTags) {f : Char → Bool}
    (hf : f '<' = false) {t : Text} (ht : ∀ c ∈ t, f c = true) :
    sc.PassesOver t :=
  hsc.passesOver fun hmem => by
    rw [ht _ hmem] at hf
    cases hf

-- ================================================================ tags

/-- The pieces of a text that is taken as a whole, or else not at all. -/
def whole (t : Text) : Option α → List (Piece α)
  | none => t.map .char
  | some v => [.hit ⟨t, v⟩]

/-- A tag is one hit if it is read, and characters if its inside is passed
over. -/
theorem pieces_tag {body : Text} {v? : Option α} {s : Text}
    (hbody : v? = none → sc.PassesOver body)
    (h : sc.scan ('<' :: body ++ s) = v?.map (⟨'<' :: body, ·⟩)) :
    sc.pieces ('<' :: body ++ s) = whole ('<' :: body) v? ++ sc.pieces s := by
  cases v? with
  | none =>
    rw [List.cons_append] at h ⊢
    rw [sc.pieces_of_none h, hbody rfl]
    rfl
  | some v => exact sc.pieces_append_of_hit h

end ComponentMarkdown.Scanner
