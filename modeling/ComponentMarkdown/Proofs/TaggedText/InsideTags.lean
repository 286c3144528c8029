/-
The two rules that work inside opening tags, on tagged text. There are no
values in braces, so the rule for them leaves everything as it is
(`text_apply_braceAttributes_tagged`); the rule for casing lowers the known
names (`text_apply_attributeCasing_tagged`). What stands in quotes is no
matter for either of them.
-/
import ComponentMarkdown.Proofs.TaggedText.Attributes

namespace ComponentMarkdown.TaggedText

open Markup

/-- Behind a name, an attribute and what follows it end the name. -/
theorem Attribute.endsBefore_ending (a : Attribute) {s : Text}
    (hs : MayFollow s) : MixedCaseName.endsBefore (a.ending ++ s) = true := by
  have hblank {c : Char} (hc : isBlank c = true) (t : Text) :
      MixedCaseName.endsBefore (c :: t) = true := by
    show (isBlank c || c == '=' || c == '/' || c == '>') = true
    rw [hc]
    rfl
  unfold ending
  cases a.assigned with
  | some v =>
    unfold Assigned.written
    dsimp only
    cases v.before with
    | nil => rfl
    | cons b before => exact hblank b.2 _
  | none => exact MixedCaseName.endsBefore_of_mayFollow hs

-- ==================================================== values in braces

/-- Behind a name there is no brace, if none stands behind an equals sign
that follows it. -/
theorem dropWhile_ne_brace {name t : Text} (hname : '=' ∉ name)
    (hend : MixedCaseName.endsBefore t = true)
    (ht : ∀ inside, t ≠ '=' :: '{' :: inside) (inside : Text) :
    (name ++ t).dropWhile BraceAttribute.isNameChar
      ≠ '=' :: '{' :: inside := by
  induction name with
  | nil =>
    cases t with
    | nil => exact List.cons_ne_nil _ _ ∘ Eq.symm
    | cons c t =>
      have hc : BraceAttribute.isNameChar c = false := by
        unfold MixedCaseName.endsBefore at hend
        simp only [Bool.or_eq_true, beq_iff_eq] at hend
        rcases hend with ((hblank | rfl) | rfl) | rfl
        · exact BraceAttribute.isNameChar_of_isBlank hblank
        · decide
        · decide
        · decide
      rw [List.nil_append, List.dropWhile_cons_of_neg (by rw [hc]; decide)]
      exact ht inside
  | cons c name ih =>
    rw [List.mem_cons, not_or] at hname
    rw [List.cons_append, List.dropWhile_cons]
    split
    · exact ih hname.2
    · exact fun heq => hname.1 (List.cons.inj heq).1.symm

namespace Attribute

/-- Behind a name there is no value in braces. -/
theorem ending_ne_brace (a : Attribute) {s : Text} (hs : MayFollow s)
    (inside : Text) : a.ending ++ s ≠ '=' :: '{' :: inside := by
  intro heq
  unfold ending at heq
  cases hassigned : a.assigned with
  | none =>
    rw [hassigned, List.nil_append] at heq
    rcases hs '=' (by rw [heq]; rfl) with hc | hc | hc <;>
      exact absurd hc (by decide)
  | some v =>
    rw [hassigned] at heq
    unfold Assigned.written at heq
    dsimp only at heq
    cases hbefore : v.before with
    | cons b before =>
      rw [hbefore] at heq
      have hb := b.2
      rw [(List.cons.inj heq).1] at hb
      cases hb
    | nil =>
      rw [hbefore] at heq
      have hrest := (List.cons.inj heq).2
      cases hafter : v.after with
      | cons b after =>
        rw [hafter] at hrest
        have hb := b.2
        rw [(List.cons.inj hrest).1] at hb
        cases hb
      | nil =>
        rw [hafter] at hrest
        have hquote := v.value.quote_isQuote
        rw [(List.cons.inj hrest).1] at hquote
        cases hquote

/-- No attribute is read as one with a value in braces. -/
theorem brace_unread (a : Attribute) {s : Text} (hs : MayFollow s) :
    BraceAttribute.ofText? (a.written ++ s) = none := by
  have hequals : '=' ∉ a.name.text :=
    fun h => absurd (a.name.nameChar '=' h) (by decide)
  have hend := a.endsBefore_ending hs
  have hbrace := a.ending_ne_brace hs
  unfold written head
  rw [List.append_assoc, List.cons_append]
  cases hname : a.name.text with
  | nil => exact absurd hname a.name.ne_nil
  | cons first rest =>
    rw [hname, List.mem_cons, not_or] at hequals
    rw [List.cons_append, BraceAttribute.ofText?]
    split
    · split
      · rename_i inside hinside
        exact absurd hinside (dropWhile_ne_brace hequals.2 hend hbrace inside)
      · rfl
    · rfl

/-- The rule for braces passes over an attribute. -/
theorem pieces_brace (a : Attribute) (s : Text) (hs : MayFollow s) :
    BraceAttribute.scanner.pieces (a.written ++ s)
      = a.unread ++ BraceAttribute.scanner.pieces s := by
  refine pieces_unread BraceAttribute.passesQuoted_scanner
    startsAttributes_brace ?_
  rw [a.brace_unread hs]
  rfl

end Attribute

/-- The rule for braces leaves tagged text as it is. -/
theorem text_apply_braceAttributes_tagged (page : TaggedText) :
    (Rule.braceAttributes.apply page.written).text = page.written := by
  have hsame : page.mapParts (Part.map id) = page := by
    have hpart : Part.map id = id := funext fun p => by cases p <;> rfl
    rw [hpart]
    exact page.mapParts_id
  conv => rhs; rw [← hsame]
  refine text_editOpeningTags_written ?_ ?_ page
  · exact fun tag =>
      BraceAttribute.scanner.spliceFrom_text_of_count_zero _ () tag
  · refine text_splice_openTag BraceAttribute.passesQuoted_scanner
      startsAttributes_brace Attribute.pieces_brace
      fun a => a.text_unread fun _ => rfl

-- ======================================================== known names

namespace Attribute

/-- What is read of a known name is the blank and the name, which is
lowered. -/
theorem mixedCase?_written {a : Attribute} {m : MixedCaseName}
    (h : a.mixedCase? = some m) :
    m.lead ++ m.name = a.head
      ∧ m.lowered = a.lead.val :: a.name.text.asciiLower := by
  unfold mixedCase? at h
  split at h
  · rename_i hhead
    obtain ⟨name, hname⟩ := List.head?_eq_some_iff.1 hhead
    split at h
    · cases h
      unfold head MixedCaseName.lowered
      rw [hname]
      exact ⟨rfl, rfl⟩
    · cases h
  · split at h
    · cases h
      exact ⟨rfl, rfl⟩
    · cases h

/-- A known name is read behind its blank and perhaps a colon. -/
theorem ofText?_head (a : Attribute) {t : Text}
    (ht : MixedCaseName.endsBefore t = true) :
    MixedCaseName.ofText? (a.head ++ t) = a.mixedCase? := by
  have hknown {name : Text} (hname : ∀ c ∈ name, isNameChar c = true) :
      MixedCaseName.known? (name ++ t)
        = if name ∈ MixedCaseName.known then some name else none :=
    MixedCaseName.known?_word (by decide)
      (fun c hc => eq_false_of_isBlank (by decide +kernel) hc) (by decide)
      hname ht
  have hmap {lead name : Text} :
      (if name ∈ MixedCaseName.known then some name else none).map
          (fun name => MixedCaseName.mk lead name)
        = if name ∈ MixedCaseName.known then some ⟨lead, name⟩ else none := by
    split <;> rfl
  have hchars := a.name.nameChar
  unfold head mixedCase?
  cases hname : a.name.text with
  | nil => exact absurd hname a.name.ne_nil
  | cons c name =>
    rw [hname] at hchars
    rw [List.cons_append, List.cons_append]
    by_cases hcolon : c = ':'
    · rw [hcolon, MixedCaseName.ofText?_colon, if_pos a.lead.2,
        hknown (List.forall_mem_cons.1 hchars).2, hmap, List.head?_cons,
        if_pos rfl, List.tail_cons]
    · have hread : MixedCaseName.ofText? (a.lead.val :: (c :: (name ++ t)))
          = (MixedCaseName.known? (c :: name ++ t)).map
            fun name => ⟨[a.lead.val], name⟩ := by
        rw [MixedCaseName.ofText?_of_ne_colon hcolon, if_pos a.lead.2]
        rfl
      have hne : (c :: name).head? ≠ some ':' :=
        fun h => hcolon (Option.some.inj h)
      rw [hread, hknown hchars, hmap, if_neg hne]

/-- What the rule for casing makes of an attribute. -/
def casingPieces (a : Attribute) : List (Piece (Option MixedCaseName)) :=
  match a.mixedCase? with
  | none => a.unread
  | some m => .hit ⟨a.head, some m⟩ :: a.endingPieces

/-- An attribute gives its name, if it is known in mixed case, and the pieces
of what follows. -/
theorem pieces_casing (a : Attribute) (s : Text) (hs : MayFollow s) :
    MixedCaseName.scanner.pieces (a.written ++ s)
      = a.casingPieces ++ MixedCaseName.scanner.pieces s := by
  have hread := a.ofText?_head (a.endsBefore_ending hs)
  unfold casingPieces
  cases hknown : a.mixedCase? with
  | none =>
    refine pieces_unread MixedCaseName.passesQuoted_scanner
      startsAttributes_mixedCase ?_
    unfold written
    rw [List.append_assoc, hread, hknown]
    rfl
  | some m =>
    have hquote : quoted? (a.head ++ (a.ending ++ s)) = none :=
      quoted?_eq_none (isQuote_of_isBlank a.lead.2) _
    have hscan : MixedCaseName.scanner.scan (a.head ++ (a.ending ++ s))
        = some ⟨a.head, some m⟩ := by
      rw [MixedCaseName.passesQuoted_scanner.of_unquoted hquote, hread,
        hknown, ← (mixedCase?_written hknown).1]
      rfl
    unfold written
    rw [List.append_assoc, MixedCaseName.scanner.pieces_append_of_hit hscan,
      a.pieces_ending MixedCaseName.passesQuoted_scanner
        startsAttributes_mixedCase]
    rfl

end Attribute

/-- The rule for casing lowers the known names of tagged text. -/
theorem text_apply_attributeCasing_tagged (page : TaggedText) :
    (Rule.attributeCasing.apply page.written).text
      = page.lowered.written := by
  refine text_editOpeningTags_written ?_ ?_ page
  · exact fun tag =>
      MixedCaseName.scanner.spliceFrom_text_of_count_zero _ () tag
  · refine text_splice_openTag MixedCaseName.passesQuoted_scanner
      startsAttributes_mixedCase Attribute.pieces_casing ?_
    intro a
    unfold Attribute.casingPieces Attribute.lowered
    cases hknown : a.mixedCase? with
    | none => exact a.text_unread fun _ => rfl
    | some m =>
      dsimp only
      rw [List.flatMap_cons, a.text_endingPieces fun _ => rfl,
        Scanner.splicedPiece, Scanner.spliced_substitution]
      show m.lowered ++ a.ending = _
      rw [(Attribute.mixedCase?_written hknown).2]
      rfl

end ComponentMarkdown.TaggedText
