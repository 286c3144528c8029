/-
Brace attributes, said as a form: a blank, a name, and in braces an
expression that holds neither braces nor a double quote
(`ofText?_eq_some_iff`). The rule leaves a text alone exactly if, outside
the quoted values of its opening tags, such expressions are all blank
(`count_apply_braceAttributes_eq_zero_iff`).

A blank expression is taken by the scanner but stays. Nothing to convert
begins inside it, so it hides nothing (`outside_written`).
-/
import ComponentMarkdown.Proofs.Markup.Opening
import ComponentMarkdown.Proofs.Markup.Quoted
import ComponentMarkdown.Proofs.Text.Blank
import ComponentMarkdown.Rule.BraceAttributes

namespace ComponentMarkdown

open Markup

namespace BraceAttribute

-- ============================================================ the form

/-- Whether a character may start an attribute name. -/
def isNameStart (c : Char) : Bool := c.isAlpha || c == '_'

/-- What a brace attribute is made of. -/
structure WellFormed (a : BraceAttribute) : Prop where
  lead : isBlank a.lead = true
  name : ∃ first rest, a.name = first :: rest ∧ isNameStart first = true
    ∧ ∀ c ∈ rest, isNameChar c = true
  value_ne_nil : a.value ≠ []
  value : ∀ c ∈ a.value, isValueChar c = true

/-- What is read is well formed. -/
theorem wellFormed_of_ofText? {s : Text} {a : BraceAttribute}
    (h : ofText? s = some a) : a.WellFormed := by
  unfold ofText? at h
  split at h
  · rename_i lead first rest
    split at h
    · rename_i hstart
      rw [Bool.and_eq_true] at hstart
      split at h
      · rename_i inside hi
        split at h
        · rename_i v value after hv ha
          cases h
          refine ⟨hstart.1, ⟨first, _, rfl, hstart.2, ?_⟩, by simp, ?_⟩
          · exact fun c hc => List.all_eq_true.1 List.all_takeWhile c hc
          · intro c hc
            rw [← hv] at hc
            exact List.all_eq_true.1 List.all_takeWhile c hc
        · cases h
      · cases h
    · cases h
  · cases h

/-- A brace attribute is recognised wherever one is written. -/
theorem ofText?_written {a : BraceAttribute} (ha : a.WellFormed)
    (after : Text) : ofText? (a.written ++ after) = some a := by
  obtain ⟨lead, name, value⟩ := a
  obtain ⟨hlead, ⟨first, rest, rfl, hfirst, hrest⟩, hne, hvalue⟩ := ha
  cases value with
  | nil => exact absurd rfl hne
  | cons v value =>
    have hrest' : ∀ c ∈ rest, isNameChar c = true := hrest
    have hname : (rest ++ '=' :: '{' :: (v :: value ++ '}' :: after)).dropWhile
        isNameChar = '=' :: '{' :: (v :: value ++ '}' :: after) := by
      rw [List.dropWhile_append_of_pos hrest']
      rfl
    have htaken : (rest ++ '=' :: '{' :: (v :: value ++ '}' :: after)).takeWhile
        isNameChar = rest := by
      rw [List.takeWhile_append_of_pos hrest']
      show rest ++ [] = rest
      rw [List.append_nil]
    have hinside : (v :: value ++ '}' :: after).takeWhile isValueChar
        = v :: value := by
      rw [List.takeWhile_append_of_pos hvalue]
      show v :: value ++ [] = v :: value
      rw [List.append_nil]
    have hbehind : (v :: value ++ '}' :: after).dropWhile isValueChar
        = '}' :: after := by
      rw [List.dropWhile_append_of_pos hvalue]
      rfl
    have hs : (BraceAttribute.mk lead (first :: rest) (v :: value)).written
        ++ after
        = lead :: first :: (rest ++ '=' :: '{' :: (v :: value ++ '}' :: after))
        := by
      simp [written]
    have hstart : (isBlank lead && (first.isAlpha || first == '_')) = true := by
      rw [Bool.and_eq_true]
      exact ⟨hlead, hfirst⟩
    rw [hs, ofText?, if_pos hstart]
    simp only [hname, hinside, hbehind, htaken]

/-- An attribute is read exactly where it is written and well formed. -/
theorem ofText?_eq_some_iff {s : Text} {a : BraceAttribute} :
    ofText? s = some a ↔ a.WellFormed ∧ a.written <+: s := by
  constructor
  · exact fun h => ⟨wellFormed_of_ofText? h, written_isPrefix h⟩
  · rintro ⟨ha, after, rfl⟩
    exact ofText?_written ha after

/-- A brace attribute stays only if there is nothing but blanks in its
braces. -/
theorem template?_eq_none_iff {a : BraceAttribute} :
    a.template? = none ↔ ∀ c ∈ a.value, isBlank c = true := by
  rw [← Text.trim_eq_nil_iff]
  unfold template?
  split
  · rename_i h
    exact iff_of_true rfl h
  · rename_i h
    split <;> exact iff_of_false (by simp) h

/-- Otherwise digits are put in quotes, and any other value is bound. -/
theorem template?_cases {a : BraceAttribute} {new : Text}
    (h : a.template? = some new) :
    new = a.lead :: a.name ++ '=' :: '"' :: a.value.trim ++ ['"']
      ∨ new = a.lead :: ':' :: a.name ++ '=' :: '"' :: a.value ++ ['"'] := by
  unfold template? at h
  split at h
  · cases h
  · split at h
    · cases h
      exact Or.inl rfl
    · cases h
      exact Or.inr rfl

-- ===================================================== blank braces

theorem isNameStart_of_isBlank {c : Char} (hc : isBlank c = true) :
    isNameStart c = false :=
  eq_false_of_isBlank (by decide +kernel) hc

theorem isNameChar_of_isBlank {c : Char} (hc : isBlank c = true) :
    isNameChar c = false := by
  unfold isNameChar
  rw [isWordChar_of_isBlank hc, Bool.false_or, beq_eq_false_iff_ne]
  rintro rfl
  exact absurd hc (by decide)

/-- What may start a name may also stand further on in it. -/
theorem isNameChar_of_isNameStart {c : Char} (hc : isNameStart c = true) :
    isNameChar c = true := by
  unfold isNameStart at hc
  rw [Bool.or_eq_true] at hc
  unfold isNameChar
  rcases hc with hc | hc
  · rw [isWordChar_of_alphanum (isAlphanum_of_alpha hc)]
    rfl
  · rw [eq_of_beq hc]
    decide

theorem WellFormed.isNameChar_name {a : BraceAttribute} (ha : a.WellFormed) :
    ∀ c ∈ a.name, isNameChar c = true := by
  obtain ⟨first, rest, hname, hfirst, hrest⟩ := ha.name
  rw [hname]
  exact List.forall_mem_cons.2 ⟨isNameChar_of_isNameStart hfirst, hrest⟩

/-- The characters from the name through the opening brace are neither
blanks nor quotes. -/
theorem WellFormed.visible {a : BraceAttribute} (ha : a.WellFormed) :
    ∀ c ∈ a.name ++ ['=', '{'], isBlank c = false ∧ isQuote c = false := by
  refine List.forall_mem_append.2 ⟨fun c hc => ?_, by decide⟩
  have hchar := ha.isNameChar_name c hc
  constructor
  · rw [← Bool.not_eq_true]
    intro hblank
    rw [isNameChar_of_isBlank hblank] at hchar
    cases hchar
  · rw [← Bool.not_eq_true, isQuote_iff]
    rintro (rfl | rfl) <;> exact absurd hchar (by decide)

/-- An attribute starts with a blank. -/
theorem ofText?_of_visible {c : Char} (hc : isBlank c = false) (s : Text) :
    ofText? (c :: s) = none := by
  cases s with
  | nil => rfl
  | cons d s => simp [ofText?, hc]

/-- Behind the blank comes a name. -/
theorem ofText?_of_no_name {d : Char} (hd : isNameStart d = false)
    (c : Char) (s : Text) : ofText? (c :: d :: s) = none := by
  unfold isNameStart at hd
  simp [ofText?, hd]

/-- No attribute starts among visible characters. -/
theorem outside_none {a b r : Text}
    (ha : ∀ c ∈ a, isBlank c = false ∧ isQuote c = false)
    (hr : Outside (a ++ b) r) : ofText? r = none ∨ Outside b r := by
  rcases outside_visible ha hr with hvisible | hr
  · obtain ⟨c, rest, rfl, hc⟩ := hvisible
    exact Or.inl (ofText?_of_visible hc rest)
  · exact Or.inr hr

/-- No attribute starts among the blanks before a closing brace. -/
theorem outside_blanks {value after r : Text}
    (hvalue : ∀ c ∈ value, isBlank c = true)
    (hr : Outside (value ++ '}' :: after) r) :
    ofText? r = none ∨ Outside after r := by
  induction value with
  | nil =>
    have hbrace : ∀ c ∈ ['}'], isBlank c = false ∧ isQuote c = false :=
      List.forall_mem_singleton.2 (by decide)
    exact outside_none hbrace hr
  | cons c value ih =>
    obtain ⟨hc, hvalue⟩ := List.forall_mem_cons.1 hvalue
    rw [List.cons_append, outside_of_unquoted
      (quoted?_eq_none (isQuote_of_isBlank hc) _)] at hr
    rcases hr with rfl | hr
    · left
      cases value with
      | nil => exact ofText?_of_no_name (by decide) _ _
      | cons d value =>
        have hd := (List.forall_mem_cons.1 hvalue).1
        exact ofText?_of_no_name (isNameStart_of_isBlank hd) _ _
    · exact ih hvalue hr

theorem written_append (a : BraceAttribute) (after : Text) :
    a.written ++ after
      = a.lead :: ((a.name ++ ['=', '{']) ++ (a.value ++ '}' :: after)) := by
  simp [written]

/-- An attribute with a blank expression is passed over, and no other
attribute starts in it. -/
theorem outside_written {a : BraceAttribute} (ha : a.WellFormed)
    (hvalue : ∀ c ∈ a.value, isBlank c = true) (after : Text) :
    Outside (a.written ++ after) after
      ∧ ∀ r, Outside (a.written ++ after) r →
        r = a.written ++ after ∨ ofText? r = none ∨ Outside after r := by
  have hlead := quoted?_eq_none (isQuote_of_isBlank ha.lead)
  constructor
  · apply outside_append
    intro c hc
    have hparts : c = a.lead ∨ c ∈ a.name ++ ['=', '{'] ∨ c ∈ a.value
        ∨ c = '}' := by
      simpa [written, or_assoc] using hc
    rcases hparts with rfl | hc | hc | rfl
    · exact isQuote_of_isBlank ha.lead
    · exact (ha.visible c hc).2
    · exact isQuote_of_isBlank (hvalue c hc)
    · decide
  · intro r hr
    rw [written_append, outside_of_unquoted (hlead _)] at hr
    rcases hr with hr | hr
    · exact Or.inl (by rw [written_append, hr])
    · rcases outside_none ha.visible hr with hr | hr
      · exact Or.inr (Or.inl hr)
      · exact Or.inr (outside_blanks hvalue hr)

-- ===================================================== the whole rule

/-- What the rule does with what its scanner takes. -/
def edit (h : Hit (Option BraceAttribute)) : Edited :=
  Scanner.substitution h (h.value.bind template?)

theorem passesQuoted_scanner :
    PassesQuoted scanner fun s => (ofText? s).map fun a => ⟨a.written, a⟩ :=
  fun _ => rfl

/-- The brace attributes at places outside quoted values are what the
scanner has to deal with. -/
theorem hits_scanner_iff {tag : Text} :
    (∀ h ∈ scanner.hits tag, ∀ a, h.value = some a → ¬ a.template? ≠ none)
      ↔ ∀ r, Outside tag r → ∀ g : Hit BraceAttribute,
        (ofText? r).map (fun a => ⟨a.written, a⟩) = some g →
        ¬ g.value.template? ≠ none := by
  refine passesQuoted_scanner.hits_iff (fun a => a.template? ≠ none)
    ?_ ?_ tag
  · intro s hs
    rw [Option.isSome_map] at hs
    obtain ⟨a, ha⟩ := Option.isSome_iff_exists.1 hs
    obtain ⟨hwell, after, rfl⟩ := ofText?_eq_some_iff.1 ha
    exact quoted?_eq_none (isQuote_of_isBlank hwell.lead) _
  · intro s h hs hnot
    obtain ⟨a, ha, rfl⟩ := Option.map_eq_some_iff.1 hs
    obtain ⟨hwell, after, rfl⟩ := ofText?_eq_some_iff.1 ha
    have hvalue : ∀ c ∈ a.value, isBlank c = true :=
      template?_eq_none_iff.1 (Classical.not_not.1 hnot)
    obtain ⟨hreach, hpass⟩ := outside_written hwell hvalue after
    rw [List.drop_left]
    refine ⟨hreach, fun r hr => ?_⟩
    rcases hpass r hr with rfl | hr | hr
    · right
      intro g hg
      rw [ha] at hg
      cases hg
      exact hnot
    · right
      intro g hg
      rw [hr] at hg
      cases hg
    · exact Or.inl hr

/-- A tag is left alone exactly if the expressions of its brace attributes
are all blank. -/
theorem count_convertTag_eq_zero_iff {tag : Text} :
    (convertTag tag).count = 0
      ↔ ∀ r, Outside tag r → ∀ a : BraceAttribute, a.WellFormed →
        a.written <+: r → ∀ c ∈ a.value, isBlank c = true := by
  unfold convertTag
  rw [Scanner.count_replace_eq_zero_iff]
  have hbind : (∀ h ∈ scanner.hits tag, h.value.bind template? = none)
      ↔ ∀ h ∈ scanner.hits tag, ∀ a, h.value = some a →
        ¬ a.template? ≠ none := by
    simp only [Option.bind_eq_none_iff, Classical.not_not]
  rw [hbind, hits_scanner_iff]
  constructor
  · intro hall r hr a ha hprefix
    have hread := ofText?_eq_some_iff.2 ⟨ha, hprefix⟩
    have hnot := hall r hr ⟨a.written, a⟩ (by rw [hread]; rfl)
    exact template?_eq_none_iff.1 (Classical.not_not.1 hnot)
  · intro hall r hr g hg hnot
    obtain ⟨a, hread, rfl⟩ := Option.map_eq_some_iff.1 hg
    obtain ⟨ha, hprefix⟩ := ofText?_eq_some_iff.1 hread
    exact hnot (template?_eq_none_iff.2 (hall r hr a ha hprefix))

end BraceAttribute

/-- The rule converts the tags of a text one by one. -/
theorem text_apply_braceAttributes_pieces (s : Text) :
    (Rule.braceAttributes.apply s).text
      = (openingTags.pieces s).flatMap
        (editedPiece BraceAttribute.convertTag) :=
  text_editOpeningTags (fun _ hcount =>
    BraceAttribute.scanner.spliceFrom_text_of_count_zero _ () _ hcount) s

/-- The rule counts nothing exactly if, outside the quoted values of the
opening tags, brace attributes hold nothing but blanks. -/
theorem count_apply_braceAttributes_eq_zero_iff {s : Text} :
    (Rule.braceAttributes.apply s).count = 0
      ↔ ∀ tag ∈ openingTagsOf s, ∀ r, Outside tag r →
        ∀ a : BraceAttribute, a.WellFormed → a.written <+: r →
        ∀ c ∈ a.value, isBlank c = true := by
  show (editOpeningTags BraceAttribute.convertTag s).count = 0 ↔ _
  rw [count_editOpeningTags_eq_zero_iff]
  simp only [BraceAttribute.count_convertTag_eq_zero_iff]

end ComponentMarkdown
