/-
What the rule for callouts reads of the class in attributes in the syntax of
HTML. Behind its blank, a bare or quoted attribute is read for what it is. A
value without quotes is none for the rule, unless it starts with a brace: a
class attribute with such a value is passed over, like one with another
name (`UnquotedAttribute.pieces_class`).

Blanks around the equals sign of a value without quotes may lead the rule
astray: it takes a class in front of blanks for a bare one, and a value
behind blanks for an attribute. Attributes are `Legible` where this does not
happen. What the rule makes of such attributes is said by those it reads a
class in (`ofAttributes_written`).
-/
import ComponentMarkdown.Proofs.Html.Attributes
import ComponentMarkdown.Proofs.TaggedText.Classes

namespace ComponentMarkdown.Html

open Markup ClassAttribute
open ClassUse (Continues continues_nil)
open TaggedText (continues_name nameOf?_append ofText?_of_no_spelling)

-- ================================================== values without quotes

namespace UnquotedAttribute

variable (a : UnquotedAttribute)

/-- Whether the name is one of those of a class attribute. -/
def isClass : Bool := ClassUse.spellings.any fun p => p.1 == a.name.text

/-- Whether this is a class attribute whose value starts with a brace. -/
def isExpression : Bool := a.isClass && a.value.text.head? == some '{'

/-- Whether no part of the attribute is taken for a class attribute, but for
an expression. -/
structure Legible : Prop where
  name : a.isClass = true → a.isExpression = true ∨ a.before = []
  value : a.after = [] ∨ ClassUse.nameOf? a.value.text = none

/-- The attribute as a class attribute that gives an expression. -/
def classUse : ClassUse := ⟨a.name.text != "class".toList, .expression⟩

/-- What the class reader makes of the attribute. -/
def classPieces : List (Piece (Option ClassUse)) :=
  if a.isExpression then
    .hit ⟨a.lead.val :: a.name.text ++ (a.before.map Subtype.val
        ++ '=' :: a.after.map Subtype.val ++ ['{']), some a.classUse⟩
      :: a.value.text.tail.map .char
  else a.written.map .char

theorem visible_value :
    ∀ c ∈ a.value.text, isBlank c = false ∧ isQuote c = false :=
  fun c hc => ⟨(of_isUnquoted (a.value.unquoted c hc)).1,
    (of_isUnquoted (a.value.unquoted c hc)).2.1⟩

theorem isBlank_of_mem (spaces : List Space) :
    ∀ c ∈ spaces.map Subtype.val, isBlank c = true :=
  fun c hc => isBlank_of_isSpace (isSpace_of_mem spaces c hc)

variable {a} {s : Text}

/-- The name ends in front of the blanks or the equals sign. -/
theorem isNameChar_behind (a : UnquotedAttribute) (t : Text) :
    ∀ c ∈ (a.before.map Subtype.val ++ '=' :: t).head?,
      TaggedText.isNameChar c = false := by
  intro c hc
  cases hbefore : a.before with
  | nil =>
    rw [hbefore] at hc
    cases hc
    decide
  | cons b before =>
    rw [hbefore] at hc
    cases hc
    exact TaggedText.isNameChar_of_isBlank (isBlank_of_isSpace b.2)

theorem nameOf?_of_isClass (h : a.isClass = true) (t : Text) :
    ClassUse.nameOf? (a.name.text ++ (a.before.map Subtype.val ++ '=' :: t))
      = some ⟨a.name.text, a.name.text != "class".toList⟩ := by
  have hall : ∀ p ∈ ClassUse.spellings,
      ClassUse.nameOf? p.1 = some ⟨p.1, p.1 != "class".toList⟩ := by decide
  obtain ⟨p, hp, heq⟩ := List.any_eq_true.1 h
  rw [nameOf?_append _ (a.isNameChar_behind t), ← eq_of_beq heq]
  exact hall p hp

/-- A class attribute with an expression is read up to its brace. -/
theorem ofText?_expression (h : a.isExpression = true) (s : Text) :
    ∃ value, a.value.text = '{' :: value
      ∧ ClassUse.ofText? (a.written ++ s)
        = some ⟨a.lead.val :: a.name.text ++ (a.before.map Subtype.val
            ++ '=' :: a.after.map Subtype.val ++ ['{']), a.classUse⟩ := by
  obtain ⟨hclass, hbrace⟩ := Bool.and_eq_true_iff.1 h
  obtain ⟨value, hvalue⟩ := List.head?_eq_some_iff.1 (eq_of_beq hbrace)
  refine ⟨value, hvalue, ?_⟩
  have hread : ClassValue.ofText? (a.before.map Subtype.val
        ++ '=' :: (a.after.map Subtype.val ++ '{' :: (value ++ s)))
      = some ⟨a.before.map Subtype.val ++ '=' :: a.after.map Subtype.val
        ++ ['{'], .expression⟩ := by
    refine ClassValue.ofText?_equals (isBlank_of_mem a.before)
      (isBlank_of_mem a.after) fun c hc => ?_
    cases hc
    decide
  have hwritten : a.written ++ s = a.lead.val :: (a.name.text
      ++ (a.before.map Subtype.val ++ '=' :: (a.after.map Subtype.val
        ++ '{' :: (value ++ s)))) := by
    simp [written, hvalue]
  rw [hwritten]
  exact ClassUse.ofText?_of_value (isBlank_of_isSpace a.lead.2)
    (nameOf?_of_isClass hclass _) hread

/-- Nothing is read of any other. -/
theorem ofText?_eq_none (ha : a.Legible) (h : a.isExpression = false)
    (s : Text) : ClassUse.ofText? (a.written ++ s) = none := by
  obtain ⟨c, value, hvalue⟩ := List.exists_cons_of_ne_nil a.value.ne_nil
  have hlead := isBlank_of_isSpace a.lead.2
  have hwritten : a.written ++ s = a.lead.val :: (a.name.text
      ++ (a.before.map Subtype.val ++ '=' :: (a.after.map Subtype.val
        ++ c :: (value ++ s)))) := by
    simp [written, hvalue]
  rw [hwritten]
  cases hclass : a.isClass with
  | false =>
    exact ofText?_of_no_spelling hlead hclass (a.isNameChar_behind _)
  | true =>
    have hbefore : a.before = [] := by
      rcases ha.name hclass with hexpr | hbefore
      · rw [h] at hexpr
        cases hexpr
      · exact hbefore
    obtain ⟨hblank, hquote⟩ := a.visible_value c (by rw [hvalue]; simp)
    have hbrace : c ≠ '{' := by
      rintro rfl
      unfold isExpression at h
      rw [hclass, hvalue] at h
      cases h
    obtain ⟨hdouble, hsingle⟩ := isQuote_eq_false_iff.1 hquote
    refine (ClassUse.ofText?_of_no_value hlead (nameOf?_of_isClass hclass _)
      (ClassValue.ofText?_unquoted (isBlank_of_mem a.before)
        (isBlank_of_mem a.after) hblank
        ⟨hdouble, hsingle, hbrace⟩)).trans ?_
    rw [hbefore]
    rfl

/-- Behind the equals sign a value is passed over that is read as no
name. -/
theorem pieces_value (ha : a.after = [] ∨ ClassUse.nameOf? a.value.text = none)
    (hs : Continues s) :
    ClassUse.scanner.pieces
        (a.after.map Subtype.val ++ (a.value.text ++ s))
      = (a.after.map Subtype.val ++ a.value.text).map .char
        ++ ClassUse.scanner.pieces s := by
  have hvalue := pieces_visible ClassUse.passesQuoted_scanner
    startsAttributes_class a.visible_value s
  rcases ha with hafter | hname
  · rw [hafter]
    exact hvalue
  · have hend : ∀ c ∈ s.head?, TaggedText.isNameChar c = false :=
      fun c hc => TaggedText.isNameChar_of_isBlank (hs.head c hc)
    have hnone (b : Char) (hb : isBlank b = true) :
        ClassUse.ofText? (b :: (a.value.text ++ s)) = none := by
      rw [ClassUse.ofText?, if_pos hb, nameOf?_append _ hend, hname]
    have hblanks := pieces_blanks_of_none ClassUse.passesQuoted_scanner
      startsAttributes_class (isBlank_of_mem a.after) hnone
    rw [hblanks, hvalue, List.map_append, List.append_assoc]

theorem pieces_class (ha : a.Legible) (hs : Continues s) :
    ClassUse.scanner.pieces (a.written ++ s)
      = a.classPieces ++ ClassUse.scanner.pieces s := by
  have hlead := isBlank_of_isSpace a.lead.2
  have hquote : quoted? (a.written ++ s) = none :=
    quoted?_eq_none (isQuote_of_isBlank hlead) _
  unfold classPieces
  cases hexpr : a.isExpression with
  | true =>
    obtain ⟨value, hvalue, hread⟩ := ofText?_expression hexpr s
    have hvisible := a.visible_value
    rw [hvalue] at hvisible
    have hrest := pieces_visible ClassUse.passesQuoted_scanner
      startsAttributes_class (List.forall_mem_cons.1 hvisible).2 s
    have hwritten : a.written ++ s
        = (a.lead.val :: a.name.text ++ (a.before.map Subtype.val
          ++ '=' :: a.after.map Subtype.val ++ ['{'])) ++ (value ++ s) := by
      simp [written, hvalue]
    have hscan := ClassUse.passesQuoted_scanner.of_unquoted hquote
    rw [hread, hwritten] at hscan
    rw [if_pos rfl, hwritten, ClassUse.scanner.pieces_append_of_hit hscan,
      hrest, hvalue]
    rfl
  | false =>
    have hnone := ofText?_eq_none ha hexpr s
    have hname : ∀ c ∈ a.name.text, isBlank c = false ∧ isQuote c = false :=
      fun c hc => ⟨TaggedText.isBlank_of_isNameChar (a.name.nameChar c hc),
        TaggedText.isQuote_of_isNameChar (a.name.nameChar c hc)⟩
    have hequals := pieces_visible ClassUse.passesQuoted_scanner
      startsAttributes_class (t := ['='])
      (List.forall_mem_singleton.2 (by decide))
      (a.after.map Subtype.val ++ (a.value.text ++ s))
    have hnoName : NoName (['='] ++ (a.after.map Subtype.val
        ++ (a.value.text ++ s))) := by
      intro c hc
      cases hc
      decide
    have hbefore := pieces_blanks_of_none ClassUse.passesQuoted_scanner
      startsAttributes_class (isBlank_of_mem a.before)
      fun c _ => scan_of_noName startsAttributes_class hnoName c
    have hwritten : a.written ++ s = a.lead.val :: (a.name.text
        ++ (a.before.map Subtype.val ++ (['='] ++ (a.after.map Subtype.val
          ++ (a.value.text ++ s))))) := by
      simp [written]
    rw [hwritten] at hnone ⊢
    rw [pieces_blank ClassUse.passesQuoted_scanner hlead hnone,
      pieces_visible ClassUse.passesQuoted_scanner startsAttributes_class
        hname, hbefore, hequals, pieces_value ha.value hs]
    simp [written]

end UnquotedAttribute

-- =============================================================== parts

namespace Part

/-- The class attribute that the rule reads. -/
def classUse? : Part → Option ClassUse
  | .tagged (.blank _) _ => none
  | .tagged (.attr a) _ => if a.isClass then some a.classUse else none
  | .unquoted a => if a.isExpression then some a.classUse else none

/-- Whether the rule reads the part for what it is. -/
def Legible : Part → Prop
  | .tagged _ _ => True
  | .unquoted a => a.Legible

/-- What the scanner for classes makes of a part. -/
def classPieces : Part → List (Piece (Option ClassUse))
  | .tagged p _ => p.pieces TaggedText.Attribute.classPieces
  | .unquoted a => a.classPieces

theorem continues_written (p : Part) {s : Text} (hs : Continues s) :
    Continues (p.written ++ s) := by
  cases p with
  | tagged p _ => exact p.continues_written hs
  | unquoted a =>
    have hnext := continues_name (isBlank_of_isSpace a.lead.2) a.name
      (a.before.map Subtype.val ++ '=' :: (a.after.map Subtype.val
        ++ a.value.text) ++ s)
    rw [← List.append_assoc] at hnext
    exact hnext

theorem pieces_class {p : Part} (hp : p.Legible) {s : Text}
    (hs : Continues s) :
    ClassUse.scanner.pieces (p.written ++ s)
      = p.classPieces ++ ClassUse.scanner.pieces s := by
  cases p with
  | tagged p _ => exact p.pieces_class hs
  | unquoted a => exact a.pieces_class hp hs

/-- Of a part that is no class attribute no piece is one. -/
theorem use?_of_classUse?_eq_none {p : Part} (h : p.classUse? = none) :
    ∀ q ∈ p.classPieces, use? q = none := by
  cases p with
  | tagged p hp =>
    cases p with
    | blank b => exact List.forall_mem_singleton.2 rfl
    | attr a =>
      have hclass : ¬ a.isClass = true := by
        intro hclass
        rw [classUse?, if_pos hclass] at h
        cases h
      show ∀ q ∈ a.classPieces, use? q = none
      unfold TaggedText.Attribute.classPieces
      rw [if_neg hclass]
      exact a.use?_unread
  | unquoted a =>
    have hexpr : ¬ a.isExpression = true := by
      intro hexpr
      rw [classUse?, if_pos hexpr] at h
      cases h
    show ∀ q ∈ a.classPieces, use? q = none
    unfold UnquotedAttribute.classPieces
    rw [if_neg hexpr]
    exact fun _ => use?_of_mem_chars

/-- A class attribute is read of a bare or quoted one, or it gives an
expression. -/
theorem classUse?_eq_some {p : Part} {u : ClassUse}
    (h : p.classUse? = some u) :
    (∃ a spaced, p = .tagged (.attr a) spaced ∧ a.isClass = true
        ∧ u = a.classUse)
      ∨ ∃ a, p = .unquoted a ∧ a.isExpression = true ∧ u = a.classUse := by
  cases p with
  | tagged p spaced =>
    cases p with
    | blank b => cases h
    | attr a =>
      obtain ⟨hclass, hu⟩ := Option.ite_none_right_eq_some.1 h
      exact Or.inl ⟨a, spaced, rfl, hclass, (Option.some.inj hu).symm⟩
  | unquoted a =>
    obtain ⟨hexpr, hu⟩ := Option.ite_none_right_eq_some.1 h
    exact Or.inr ⟨a, rfl, hexpr, (Option.some.inj hu).symm⟩

theorem filterMap_use? (p : Part) :
    p.classPieces.filterMap use? = p.classUse?.toList := by
  cases huse : p.classUse? with
  | none => exact List.filterMap_eq_nil_iff.2 (use?_of_classUse?_eq_none huse)
  | some u =>
    rcases classUse?_eq_some huse with
      ⟨a, spaced, rfl, hclass, rfl⟩ | ⟨a, rfl, hexpr, rfl⟩
    · show a.classPieces.filterMap use? = _
      unfold TaggedText.Attribute.classPieces
      rw [if_pos hclass]
      rfl
    · have hchars : (a.value.text.tail.map .char).filterMap use? = [] :=
        List.filterMap_eq_nil_iff.2 fun _ => use?_of_mem_chars
      show a.classPieces.filterMap use? = _
      unfold UnquotedAttribute.classPieces
      rw [if_pos hexpr]
      exact congrArg (a.classUse :: ·) hchars

/-- The pieces of a part make up the part. -/
theorem flatMap_text {p : Part} (hp : p.Legible) :
    p.classPieces.flatMap Piece.text = p.written := by
  have hpieces := pieces_class hp continues_nil
  rw [List.append_nil, Scanner.pieces_nil, List.append_nil] at hpieces
  rw [← hpieces, List.flatMap_def]
  exact ClassUse.scanner.pieces_flatten p.written

/-- What stays of a part when class attributes that can be merged are taken
out: all of it, unless it is one. -/
theorem flatMap_filter_use? {p : Part} (hp : p.Legible)
    (hstatic : ∀ u ∈ p.classUse?, u.static?.isSome = true) :
    (p.classPieces.filter fun q => (use? q).isNone).flatMap Piece.text
      = if p.classUse?.isNone then p.written else [] := by
  cases huse : p.classUse? with
  | none =>
    rw [filter_of_use?_none (use?_of_classUse?_eq_none huse)]
    exact flatMap_text hp
  | some u =>
    have hu := hstatic u huse
    rcases classUse?_eq_some huse with
      ⟨a, spaced, rfl, hclass, rfl⟩ | ⟨a, rfl, -, rfl⟩
    · show (a.classPieces.filter _).flatMap _ = _
      unfold TaggedText.Attribute.classPieces
      rw [if_pos hclass]
      rfl
    · -- an expression cannot be merged
      unfold UnquotedAttribute.classUse ClassUse.static? at hu
      split at hu <;> cases hu

end Part

-- ============================================================ all parts

theorem continues_flatMap_written (parts : List Part) :
    Continues (parts.flatMap Part.written) := by
  induction parts with
  | nil => exact continues_nil
  | cons p parts ih =>
    rw [List.flatMap_cons]
    exact p.continues_written ih

theorem pieces_class_written {parts : List Part}
    (h : ∀ p ∈ parts, p.Legible) :
    ClassUse.scanner.pieces (parts.flatMap Part.written)
      = parts.flatMap Part.classPieces := by
  induction parts with
  | nil => exact Scanner.pieces_nil _
  | cons p parts ih =>
    obtain ⟨hp, hparts⟩ := List.forall_mem_cons.1 h
    rw [List.flatMap_cons, List.flatMap_cons,
      Part.pieces_class hp (continues_flatMap_written parts), ih hparts]

theorem filterMap_use?_written (parts : List Part) :
    (parts.flatMap Part.classPieces).filterMap use?
      = parts.filterMap Part.classUse? := by
  induction parts with
  | nil => rfl
  | cons p parts ih =>
    rw [List.flatMap_cons, List.filterMap_append, p.filterMap_use?, ih]
    cases huse : p.classUse? <;> simp [huse]

/-- The attributes without those that the rule reads a class in. -/
def othersOf (parts : List Part) : List Part :=
  parts.filter fun p => p.classUse?.isNone

theorem filter_use?_written {parts : List Part}
    (h : ∀ p ∈ parts, p.Legible)
    (hstatic : ∀ u ∈ parts.filterMap Part.classUse?,
      u.static?.isSome = true) :
    ((parts.flatMap Part.classPieces).filter fun q =>
        (use? q).isNone).flatMap Piece.text
      = (othersOf parts).flatMap Part.written := by
  induction parts with
  | nil => rfl
  | cons p parts ih =>
    obtain ⟨hp, hparts⟩ := List.forall_mem_cons.1 h
    have hthis : ∀ u ∈ p.classUse?, u.static?.isSome = true := by
      intro u hu
      exact hstatic u (List.mem_filterMap.2 ⟨p, List.mem_cons_self, hu⟩)
    have hrest : ∀ u ∈ parts.filterMap Part.classUse?,
        u.static?.isSome = true := by
      intro u hu
      obtain ⟨q, hq, hqu⟩ := List.mem_filterMap.1 hu
      exact hstatic u
        (List.mem_filterMap.2 ⟨q, List.mem_cons_of_mem p hq, hqu⟩)
    rw [List.flatMap_cons, List.filter_append, List.flatMap_append,
      Part.flatMap_filter_use? hp hthis, ih hparts hrest]
    unfold othersOf
    rw [List.filter_cons]
    split <;> rfl

/-- The classes that the rule merges into those of a container, if it
can. -/
def mergedClasses? (parts : List Part) : Option Text :=
  match parts.filterMap Part.classUse? with
  | [] => some []
  | [u] => u.static?
  | _ => none

theorem ofAttributes_written {parts : List Part}
    (h : ∀ p ∈ parts, p.Legible) :
    ClassAttribute.ofAttributes (parts.flatMap Part.written)
      = match parts.filterMap Part.classUse? with
        | [] => .absent
        | [u] =>
          match u.static? with
          | some classes =>
            .static classes ((othersOf parts).flatMap Part.written)
          | none => .unmergeable
        | _ => .unmergeable := by
  unfold ClassAttribute.ofAttributes
  dsimp only
  rw [pieces_class_written h, filterMap_use?_written]
  cases huses : parts.filterMap Part.classUse? with
  | nil => rfl
  | cons u more =>
    cases more with
    | cons v more => rfl
    | nil =>
      dsimp only
      cases hclasses : u.static? with
      | none => rfl
      | some classes =>
        rw [filter_use?_written h]
        intro v hv
        rw [huses] at hv
        rw [List.mem_singleton.1 hv, hclasses]
        rfl

end ComponentMarkdown.Html
