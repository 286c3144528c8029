/-
Mixed-case attribute names, said as a form: a blank, perhaps a colon, one
of the known names, and an end of the name (`ofText?_eq_none_iff`). The
rule leaves a text alone exactly if none stands outside the quoted values
of its opening tags (`count_apply_attributeCasing_eq_zero_iff`).
-/
import ComponentMarkdown.Proofs.Markup.Opening
import ComponentMarkdown.Proofs.Markup.Quoted
import ComponentMarkdown.Rule.AttributeCasing

namespace ComponentMarkdown

open Markup

/-- Names are compared as texts; the definitions that do so share this
instance. -/
instance : LawfulBEq Text := inferInstance

namespace MixedCaseName

/-- Whether a known name in mixed case stands at the head of a text,
behind its blank and perhaps a colon. -/
def Heads (s : Text) : Prop :=
  ∃ lead name after c, s = lead ++ name ++ after ∧ isBlank c = true
    ∧ (lead = [c] ∨ lead = [c, ':']) ∧ name ∈ known
    ∧ endsBefore after = true

/-- No known name is found exactly if none heads the text. -/
theorem known?_eq_none_iff {s : Text} :
    known? s = none
      ↔ ∀ name ∈ known, ∀ after, s = name ++ after →
        endsBefore after = false := by
  unfold known?
  rw [List.find?_eq_none]
  refine forall_congr' fun name => forall_congr' fun _ => ?_
  constructor
  · rintro h after rfl
    have hp : name.isPrefixOf (name ++ after) = true :=
      List.isPrefixOf_iff_prefix.2 (List.prefix_append _ _)
    rw [hp, Bool.true_and, List.drop_left, Bool.not_eq_true] at h
    exact h
  · intro h hboth
    rw [Bool.and_eq_true, List.isPrefixOf_iff_prefix] at hboth
    obtain ⟨⟨after, rfl⟩, hend⟩ := hboth
    rw [List.drop_left, h after rfl] at hend
    cases hend

/-- A word that ends is a known name or not as a whole. -/
theorem known?_word {f : Char → Bool}
    (hmarks : ∀ c ∈ ['=', '/', '>'], f c = false)
    (hblank : ∀ c, isBlank c = true → f c = false)
    (hknown : ∀ name ∈ known, ∀ c ∈ name, f c = true) {word t : Text}
    (hword : ∀ c ∈ word, f c = true) (ht : endsBefore t = true) :
    known? (word ++ t) = if word ∈ known then some word else none := by
  have hend {t : Text} (ht : endsBefore t = true) :
      ∀ c ∈ t.head?, f c = false := by
    intro c hc
    cases t with
    | nil => cases hc
    | cons d t =>
      cases hc
      unfold endsBefore at ht
      simp only [Bool.or_eq_true, beq_iff_eq] at ht
      rcases ht with ((hc | rfl) | rfl) | rfl
      · exact hblank c hc
      · exact hmarks _ (by decide)
      · exact hmarks _ (by decide)
      · exact hmarks _ (by decide)
  split
  · rename_i hmem
    have hsome : (known? (word ++ t)).isSome = true := by
      unfold known?
      rw [List.find?_isSome]
      refine ⟨word, hmem, ?_⟩
      rw [List.drop_left, ht, Bool.and_true, List.isPrefixOf_iff_prefix]
      exact List.prefix_append word t
    obtain ⟨found, hfound⟩ := Option.isSome_iff_exists.1 hsome
    obtain ⟨rest, hrest⟩ := known?_isPrefix hfound
    have hfoundEnd := List.find?_some hfound
    rw [← hrest, Bool.and_eq_true, List.drop_left] at hfoundEnd
    rw [hfound, word_unique (hknown found (List.mem_of_find?_eq_some hfound))
      hword (hend hfoundEnd.2) (hend ht) hrest]
  · rename_i hmem
    rw [known?_eq_none_iff]
    intro name hname after hafter
    rw [← Bool.not_eq_true]
    intro hafterEnd
    rw [word_unique hword (hknown name hname) (hend ht) (hend hafterEnd)
      hafter] at hmem
    exact hmem hname

/-- No known name starts with a colon. -/
theorem known?_colon (s : Text) : known? (':' :: s) = none := by
  rw [known?_eq_none_iff]
  intro name hname after h
  have hhead : ∀ name ∈ known, name.head? ≠ some ':' ∧ name ≠ [] := by decide
  obtain ⟨hcolon, hne⟩ := hhead name hname
  cases name with
  | nil => exact absurd rfl hne
  | cons c name =>
    cases h
    exact absurd rfl hcolon

theorem ofText?_colon (c : Char) (s : Text) :
    ofText? (c :: ':' :: s)
      = if isBlank c then (known? s).map fun name => ⟨[c, ':'], name⟩
        else none := rfl

theorem ofText?_of_ne_colon {d : Char} (hd : d ≠ ':') (c : Char)
    (s : Text) :
    ofText? (c :: d :: s)
      = if isBlank c then (known? (d :: s)).map fun name => ⟨[c], name⟩
        else none := by
  unfold ofText?
  split
  · rename_i heq
    exact absurd (List.cons.inj (List.cons.inj heq).2).1 hd
  · rename_i heq
    obtain ⟨rfl, rfl⟩ := List.cons.inj heq
    rfl
  · rename_i heq
    cases heq

theorem ofText?_cons (c : Char) (s : Text) :
    ofText? (c :: s) = none
      ↔ isBlank c = true → known? s = none
        ∧ ∀ rest, s = ':' :: rest → known? rest = none := by
  unfold ofText?
  split
  · rename_i d rest heq
    cases heq
    cases hc : isBlank c with
    | true => simp [known?_colon]
    | false => simp
  · rename_i d rest hcolon heq
    cases heq
    cases hc : isBlank c with
    | true =>
      simp only [if_true, Option.map_eq_none_iff, forall_const]
      refine ⟨fun h => ⟨h, fun rest hrest => ?_⟩, And.left⟩
      exact absurd hrest (hcolon rest)
    | false => simp
  · rename_i heq
    cases heq

/-- Nothing is read exactly if no known name is in the place of one. -/
theorem ofText?_eq_none_iff {s : Text} : ofText? s = none ↔ ¬ Heads s := by
  cases s with
  | nil =>
    refine iff_of_true rfl ?_
    rintro ⟨lead, name, after, c, heq, -, rfl | rfl, -⟩ <;> cases heq
  | cons c s =>
    rw [ofText?_cons]
    constructor
    · rintro h ⟨lead, name, after, d, heq, hd, hlead, hname, hend⟩
      rcases hlead with rfl | rfl
      · cases heq
        have hnone := known?_eq_none_iff.1 (h hd).1 name hname after rfl
        rw [hend] at hnone
        cases hnone
      · cases heq
        have hnone := known?_eq_none_iff.1 ((h hd).2 _ rfl) name hname after
          rfl
        rw [hend] at hnone
        cases hnone
    · intro h hc
      constructor
      · rw [known?_eq_none_iff]
        rintro name hname after rfl
        rw [← Bool.not_eq_true]
        intro hend
        exact h ⟨[c], name, after, c, rfl, hc, Or.inl rfl, hname, hend⟩
      · rintro rest rfl
        rw [known?_eq_none_iff]
        rintro name hname after rfl
        rw [← Bool.not_eq_true]
        intro hend
        exact h ⟨[c, ':'], name, after, c, rfl, hc, Or.inr rfl, hname, hend⟩

/-- What is read starts with a blank, so it is no quoted value. -/
theorem quoted?_eq_none_of_ofText? {s : Text} {m : MixedCaseName}
    (h : ofText? s = some m) : quoted? s = none := by
  cases s with
  | nil => rfl
  | cons c s =>
    have hc : isBlank c = true := by
      apply Classical.byContradiction
      intro hc
      rw [(ofText?_cons c s).2 fun hblank => absurd hblank hc] at h
      cases h
    exact quoted?_eq_none (isQuote_of_isBlank hc) s

theorem passesQuoted_scanner :
    PassesQuoted scanner
      fun s => (ofText? s).map fun m => ⟨m.lead ++ m.name, m⟩ :=
  fun _ => rfl

/-- The scanner finds a name exactly if one stands outside quoted values.
It replaces whatever it reads, so it passes nothing over. -/
theorem hits_scanner_iff {tag : Text} :
    (∀ h ∈ scanner.hits tag, ∀ m, h.value = some m → ¬ True)
      ↔ ∀ r, Outside tag r → ∀ g : Hit MixedCaseName,
        (ofText? r).map (fun m => ⟨m.lead ++ m.name, m⟩) = some g →
        ¬ True := by
  refine passesQuoted_scanner.hits_iff (fun _ => True) ?_ ?_ tag
  · intro s hs
    rw [Option.isSome_map] at hs
    obtain ⟨m, hm⟩ := Option.isSome_iff_exists.1 hs
    exact quoted?_eq_none_of_ofText? hm
  · intro s h _ hnot
    exact absurd trivial hnot

/-- A tag is left alone exactly if no mixed-case name stands outside its
quoted values. -/
theorem count_convertTag_eq_zero_iff {tag : Text} :
    (convertTag tag).count = 0 ↔ ∀ r, Outside tag r → ¬ Heads r := by
  unfold convertTag
  rw [Scanner.count_replace_eq_zero_iff]
  have hnone : (∀ h ∈ scanner.hits tag, h.value.map lowered = none)
      ↔ ∀ h ∈ scanner.hits tag, ∀ m, h.value = some m → ¬ True := by
    refine forall_congr' fun h => forall_congr' fun _ => ?_
    rw [Option.map_eq_none_iff, Option.eq_none_iff_forall_ne_some]
    simp only [not_true_eq_false, imp_false, ne_eq]
  rw [hnone, hits_scanner_iff]
  refine forall_congr' fun r => forall_congr' fun _ => ?_
  rw [← ofText?_eq_none_iff]
  cases ofText? r with
  | none => simp
  | some m => simp

end MixedCaseName

/-- The rule counts nothing exactly if no known name stands in mixed case
outside the quoted values of the opening tags. -/
theorem count_apply_attributeCasing_eq_zero_iff {s : Text} :
    (Rule.attributeCasing.apply s).count = 0
      ↔ ∀ tag ∈ openingTagsOf s, ∀ r, Outside tag r →
        ¬ MixedCaseName.Heads r := by
  show (editOpeningTags MixedCaseName.convertTag s).count = 0 ↔ _
  rw [count_editOpeningTags_eq_zero_iff]
  simp only [MixedCaseName.count_convertTag_eq_zero_iff]

end ComponentMarkdown
