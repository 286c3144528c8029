/-
The class among the attributes of a tag of tagged text. A class attribute is
read as a whole, whatever precedes and follows it, and nothing else is taken
for one (`Attribute.ofText?_class`). So what the parts of a tag say about its
class is said by the class attributes among them, and the other parts stay as
they are (`ofAttributes_parts`).
-/
import ComponentMarkdown.Proofs.TaggedText.Attributes

namespace ComponentMarkdown.TaggedText

open Markup
open ClassUse (Continues continues_nil)

-- ============================================================== reading

/-- An attribute can follow an attribute. -/
theorem continues_name {c : Char} (hc : isBlank c = true)
    (n : AttributeName) (t : Text) : Continues (c :: (n.text ++ t)) where
  head d hd := by
    cases hd
    exact hc
  value := by
    obtain ⟨d, name, hname⟩ := List.exists_cons_of_ne_nil n.ne_nil
    have hd := n.nameChar d (by rw [hname]; exact List.mem_cons_self)
    rw [List.dropWhile_cons_of_pos hc, hname, List.cons_append,
      List.dropWhile_cons_of_neg (by rw [isBlank_of_isNameChar hd]; decide)]
    intro e he
    cases he
    rintro rfl
    exact absurd hd (by decide)

theorem Part.continues_written (part : Part) {s : Text} (hs : Continues s) :
    Continues (part.written ++ s) := by
  cases part with
  | attr a =>
    have hwritten : (Part.attr a).written ++ s
        = a.lead.val :: (a.name.text ++ (a.ending ++ s)) := by
      simp [written, Attribute.written, Attribute.head]
    rw [hwritten]
    exact continues_name a.lead.2 a.name _
  | blank b =>
    have hdrop : (Part.written (.blank b) ++ s).dropWhile isBlank
        = s.dropWhile isBlank := List.dropWhile_cons_of_pos b.2
    refine ⟨fun c hc => ?_, ?_⟩
    · cases hc
      exact b.2
    · rw [hdrop]
      exact hs.value

/-- What is read of the name of an attribute depends on the name alone. -/
theorem nameOf?_append (name : Text) {t : Text}
    (ht : ∀ c ∈ t.head?, isNameChar c = false) :
    ClassUse.nameOf? (name ++ t) = ClassUse.nameOf? name := by
  have hchars : ∀ p ∈ ClassUse.spellings, ∀ c ∈ p.1,
      isNameChar c = true := by decide
  have hprefix : ∀ p ∈ ClassUse.spellings,
      p.1.isPrefixOf (name ++ t) = p.1.isPrefixOf name := by
    intro p hp
    rw [Bool.eq_iff_iff, List.isPrefixOf_iff_prefix,
      List.isPrefixOf_iff_prefix]
    constructor
    · rintro ⟨rest, hrest⟩
      rcases word_split (hchars p hp) ht hrest.symm with
        ⟨heq, -⟩ | ⟨d, more, heq, -⟩
      · exact ⟨[], by rw [List.append_nil, heq]⟩
      · exact ⟨d :: more, heq.symm⟩
    · exact fun h => h.trans (List.prefix_append _ _)
  unfold ClassUse.nameOf?
  refine congrArg (Option.map _) ?_
  unfold ClassUse.spellings at hprefix ⊢
  simp only [List.forall_mem_cons] at hprefix
  simp only [List.find?, hprefix.1, hprefix.2.1, hprefix.2.2.1]

/-- Nothing is read where the name is no spelling. -/
theorem ofText?_of_no_spelling {c : Char} (hc : isBlank c = true)
    {name : AttributeName}
    (hname : (ClassUse.spellings.any fun p => p.1 == name.text) = false)
    {t : Text} (ht : ∀ d ∈ t.head?, isNameChar d = false) :
    ClassUse.ofText? (c :: (name.text ++ t)) = none := by
  have hread := nameOf?_append name.text ht
  cases hnameOf : ClassUse.nameOf? name.text with
  | none => rw [ClassUse.ofText?, if_pos hc, hread, hnameOf]
  | some spelling =>
    obtain ⟨p, hp, rfl⟩ := Option.map_eq_some_iff.1 hnameOf
    obtain ⟨more, hmore⟩ := ClassUse.nameOf?_isPrefix hnameOf
    have hmem : p ∈ ClassUse.spellings := List.mem_of_find?_eq_some hp
    cases more with
    | nil =>
      rw [List.append_nil] at hmore
      exact absurd (beq_iff_eq.2 hmore)
        (List.any_eq_false.1 hname p hmem)
    | cons d more =>
      -- the spelling goes on to become another name
      have hd : isNameChar d = true :=
        name.nameChar d (by rw [← hmore]; simp)
      have hmark : d ∉ ['=', '/'] := not_mem_of_class (by decide) hd
      obtain ⟨hnone, hend⟩ := ClassUse.goes_on (isBlank_of_isNameChar hd)
        (by simpa [not_or] using hmark) (more ++ t)
      rw [hnameOf, ← hmore, List.append_assoc] at hread
      rw [← hmore, List.append_assoc]
      refine (ClassUse.ofText?_of_no_value hc hread hnone).trans ?_
      rw [List.cons_append, hend, if_neg Bool.false_ne_true]

namespace Attribute

/-- The attribute as a class attribute. -/
def classUse (a : Attribute) : ClassUse where
  bound := a.name.text != "class".toList
  value :=
    match a.assigned with
    | none => .bare
    | some v =>
      if v.value.quote = '"' then .doubleQuoted v.value.text
      else .singleQuoted v.value.text

/-- What follows the name of an attribute belongs to no name. -/
theorem isNameChar_ending (a : Attribute) {s : Text} (hs : Continues s) :
    ∀ c ∈ (a.ending ++ s).head?, isNameChar c = false := by
  intro c hc
  unfold ending at hc
  cases hassigned : a.assigned with
  | none =>
    rw [hassigned] at hc
    exact isNameChar_of_isBlank (hs.head c hc)
  | some v =>
    rw [hassigned] at hc
    unfold Assigned.written at hc
    dsimp only at hc
    cases hbefore : v.before with
    | nil =>
      rw [hbefore] at hc
      cases hc
      decide
    | cons b before =>
      rw [hbefore] at hc
      cases hc
      exact isNameChar_of_isBlank b.2

/-- Behind the name of a class attribute its value is read. -/
theorem ofText?_spelling {a : Attribute} {bound : Bool}
    (h : (a.name.text, bound) ∈ ClassUse.spellings)
    (hname : ClassUse.nameOf? a.name.text = some ⟨a.name.text, bound⟩)
    {s : Text} (hs : Continues s) :
    ClassUse.ofText? (a.written ++ s) = some ⟨a.written, a.classUse⟩ := by
  have hbound : ∀ p ∈ ClassUse.spellings, p.2 = (p.1 != "class".toList) := by
    decide
  have hread : ClassUse.nameOf? (a.name.text ++ (a.ending ++ s))
      = some ⟨a.name.text, bound⟩ := by
    rw [nameOf?_append _ (a.isNameChar_ending hs), hname]
  have hwritten : a.written ++ s
      = a.lead.val :: (a.name.text ++ (a.ending ++ s)) := by
    simp [written, head]
  rw [hwritten]
  unfold classUse
  rw [← hbound _ h]
  cases hassigned : a.assigned with
  | none =>
    have hending : a.ending = [] := by
      unfold ending
      rw [hassigned]
    obtain ⟨hnone, hend⟩ := ClassUse.ends hs
    rw [hending, List.nil_append] at hread ⊢
    rw [ClassUse.ofText?_of_no_value a.lead.2 hread hnone, if_pos hend]
    unfold written head
    rw [hending, List.append_nil]
  | some v =>
    have hending : a.ending = v.written := by
      unfold ending
      rw [hassigned]
    have hbefore : ∀ c ∈ v.before.map Subtype.val, isBlank c = true :=
      isBlank_of_mem
    have hafter : ∀ c ∈ v.after.map Subtype.val, isBlank c = true :=
      isBlank_of_mem
    have hvalue := ClassValue.ofText?_quoted hbefore hafter
      v.value.quote_isQuote v.value.unquoted s
    have hsplit : v.before.map Subtype.val ++ '=' :: (v.after.map Subtype.val
          ++ v.value.quote :: (v.value.text ++ v.value.quote :: s))
        = a.ending ++ s := by
      rw [hending]
      simp [Assigned.written, QuotedValue.written]
    rw [hsplit] at hvalue
    rw [ClassUse.ofText?_of_value a.lead.2 hread hvalue]
    unfold written head
    rw [hending]
    rfl

/-- A class attribute is read as a whole, and nothing is read of another
one. -/
theorem ofText?_class (a : Attribute) {s : Text} (hs : Continues s) :
    ClassUse.ofText? (a.written ++ s)
      = if a.isClass then some ⟨a.written, a.classUse⟩ else none := by
  have hwritten : a.written ++ s
      = a.lead.val :: (a.name.text ++ (a.ending ++ s)) := by
    simp [written, head]
  by_cases hclass : a.isClass = true
  · obtain ⟨p, hp, heq⟩ := List.any_eq_true.1 hclass
    have hread : ∀ p ∈ ClassUse.spellings,
        ClassUse.nameOf? p.1 = some ⟨p.1, p.2⟩ := by decide
    have hname : p = (a.name.text, p.2) := Prod.ext (eq_of_beq heq) rfl
    have hnameOf := hread p hp
    rw [hname] at hp hnameOf
    rw [if_pos hclass]
    exact ofText?_spelling hp hnameOf hs
  · rw [if_neg hclass, hwritten]
    exact ofText?_of_no_spelling a.lead.2 (eq_false_of_ne_true hclass)
      (a.isNameChar_ending hs)

/-- What the class reader makes of an attribute. -/
def classPieces (a : Attribute) : List (Piece (Option ClassUse)) :=
  if a.isClass then [.hit ⟨a.written, some a.classUse⟩] else a.unread

/-- An attribute is read if it is a class, and otherwise passed over. -/
theorem pieces_class (a : Attribute) {s : Text} (hs : Continues s) :
    ClassUse.scanner.pieces (a.written ++ s)
      = a.classPieces ++ ClassUse.scanner.pieces s := by
  have hread := a.ofText?_class hs
  unfold classPieces
  split at hread
  · rename_i hclass
    have hquote : quoted? (a.written ++ s) = none :=
      quoted?_eq_none (isQuote_of_isBlank a.lead.2) _
    rw [if_pos hclass]
    refine ClassUse.scanner.pieces_append_of_hit ?_
    rw [ClassUse.passesQuoted_scanner.of_unquoted hquote, hread]
    rfl
  · rename_i hclass
    rw [if_neg hclass]
    exact pieces_unread ClassUse.passesQuoted_scanner
      startsAttributes_class hread

/-- What is not read of an attribute gives no class. -/
theorem use?_unread (a : Attribute) :
    ∀ p ∈ a.unread, ClassAttribute.use? p = none := by
  intro p hp
  rcases List.mem_append.1 hp with hp | hp
  · exact ClassAttribute.use?_of_mem_chars hp
  · unfold endingPieces at hp
    cases hassigned : a.assigned with
    | none =>
      rw [hassigned] at hp
      cases hp
    | some v =>
      rw [hassigned] at hp
      rcases List.mem_append.1 hp with hp | hp
      · exact ClassAttribute.use?_of_mem_chars hp
      · rcases List.mem_cons.1 hp with rfl | hp
        · rfl
        · rcases List.mem_append.1 hp with hp | hp
          · exact ClassAttribute.use?_of_mem_chars hp
          · rw [List.mem_singleton.1 hp]
            rfl

/-- The classes that can be merged are those read off a class attribute. -/
theorem static?_classUse (a : Attribute) :
    a.classUse.static? = a.classes?.map Subtype.val := by
  unfold classUse ClassUse.static? classes?
  by_cases hname : a.name.text = "class".toList
  · have hbound : (a.name.text != "class".toList) = false := by
      rw [hname]
      rfl
    rw [hbound, if_neg Bool.false_ne_true, if_pos hname]
    cases a.assigned with
    | none => rfl
    | some v =>
      dsimp only
      by_cases hquote : v.value.quote = '"'
      · have hnot := v.value.unquoted
        rw [hquote] at hnot
        rw [if_pos hquote, dif_neg hnot]
        rfl
      · rw [if_neg hquote]
        dsimp only
        split <;> rfl
  · have hbound : (a.name.text != "class".toList) = true := bne_iff_ne.2 hname
    rw [hbound, if_pos rfl, if_neg hname]
    rfl

end Attribute

-- ============================================================ all parts

/-- So a part gives the pieces of its attribute. -/
theorem Part.pieces_class (part : Part) {s : Text} (hs : Continues s) :
    ClassUse.scanner.pieces (part.written ++ s)
      = part.pieces Attribute.classPieces ++ ClassUse.scanner.pieces s := by
  cases part with
  | blank b =>
    exact pieces_blanks ClassUse.passesQuoted_scanner startsAttributes_class
      [b] (noName_of_mayFollow fun c hc => Or.inl (hs.head c hc))
  | attr a => exact a.pieces_class hs

/-- The parts of a tag are cut into the pieces of its attributes. -/
theorem pieces_class_parts (parts : List Part) :
    ClassUse.scanner.pieces (parts.flatMap Part.written)
      = parts.flatMap (Part.pieces Attribute.classPieces) := by
  have hall := ClassUse.scanner.pieces_flatMap
    (fun part s hs => part.continues_written hs)
    (fun part s hs => part.pieces_class hs) parts continues_nil
  rw [List.append_nil, Scanner.pieces_nil, List.append_nil] at hall
  exact hall

/-- What these give are the class attributes of the tag, in order. -/
theorem filterMap_use?_parts (parts : List Part) :
    (parts.flatMap (Part.pieces Attribute.classPieces)).filterMap
        ClassAttribute.use?
      = ((parts.filterMap Part.attribute?).filter Attribute.isClass).map
        Attribute.classUse := by
  induction parts with
  | nil => rfl
  | cons part parts ih =>
    rw [List.flatMap_cons, List.filterMap_append, ih]
    cases part with
    | blank b => rfl
    | attr a =>
      show (a.classPieces).filterMap _ ++ _
        = ((a :: parts.filterMap Part.attribute?).filter _).map _
      rw [List.filter_cons]
      unfold Attribute.classPieces
      split
      · rfl
      · rw [List.filterMap_eq_nil_iff.2 a.use?_unread, List.nil_append]

/-- The parts without class attributes are what is not read. -/
theorem filter_use?_parts (parts : List Part) :
    ((parts.flatMap (Part.pieces Attribute.classPieces)).filter fun p =>
        (ClassAttribute.use? p).isNone).flatMap Piece.text
      = (parts.filter fun p => !p.isClass).flatMap Part.written := by
  have hunread (a : Attribute) :
      (a.unread (β := ClassUse)).flatMap Piece.text = a.written := by
    have htext : (Scanner.splicedPiece fun h : Hit (Option ClassUse) =>
        Scanner.substitution h none) = Piece.text := by
      funext p
      cases p with
      | char c => rfl
      | hit h => exact Scanner.spliced_substitution (fun _ => none) h
    rw [← htext]
    exact a.text_unread fun _ => rfl
  induction parts with
  | nil => rfl
  | cons part parts ih =>
    rw [List.flatMap_cons, List.filter_append, List.flatMap_append, ih,
      List.filter_cons]
    cases part with
    | blank b => rfl
    | attr a =>
      show ((a.classPieces).filter _).flatMap _ ++ _
        = List.flatMap _ (if (!a.isClass) = true then _ else _)
      unfold Attribute.classPieces
      cases a.isClass with
      | true => rfl
      | false =>
        rw [if_neg Bool.false_ne_true, ClassAttribute.filter_of_use?_none
          a.use?_unread, hunread]
        rfl

/-- What the parts of a tag say about its class is said by the class
attributes among them. -/
theorem ofAttributes_parts (parts : List Part) :
    ClassAttribute.ofAttributes (parts.flatMap Part.written)
      = match (parts.filterMap Part.attribute?).filter Attribute.isClass with
        | [] => .absent
        | [a] =>
          match a.classes? with
          | some classes => .static classes.val
            ((parts.filter fun p => !p.isClass).flatMap Part.written)
          | none => .unmergeable
        | _ => .unmergeable := by
  unfold ClassAttribute.ofAttributes
  dsimp only
  rw [pieces_class_parts, filterMap_use?_parts, filter_use?_parts]
  cases (parts.filterMap Part.attribute?).filter Attribute.isClass with
  | nil => rfl
  | cons a more =>
    cases more with
    | nil =>
      dsimp only [List.map]
      cases hclasses : a.classes? with
      | none => simp only [a.static?_classUse, hclasses, Option.map_none]
      | some classes =>
        simp only [a.static?_classUse, hclasses, Option.map_some]
    | cons b more => rfl

end ComponentMarkdown.TaggedText
