/-
Attributes in the syntax of HTML: each behind a space, and each a name, or a
name with a value in quotes or without. HTML reads them as they are written,
with their names in small letters, if what follows them is no value
(`attributes?_written`).
-/
import ComponentMarkdown.Proofs.Html.StartTag
import ComponentMarkdown.Proofs.TaggedText.Grammar

namespace ComponentMarkdown.Html

open Markup State

-- ========================================================= characters

theorem isBlank_of_isSpace {c : Char} (hc : isSpace c = true) :
    isBlank c = true := by
  have hall : ∀ c ∈ ['\t', '\n', '\x0c', '\r', ' '], isBlank c = true := by
    decide
  exact hall c (List.contains_iff_mem.1 hc)

theorem isSpace_of_isBlank {c : Char} (hc : isBlank c = false) :
    isSpace c = false := by
  rw [← Bool.not_eq_true]
  intro hspace
  rw [isBlank_of_isSpace hspace] at hc
  cases hc

/-- A character that a value without quotes may hold. -/
def isUnquoted (c : Char) : Bool := !(isBlank c || isQuote c || c == '>')

theorem of_isUnquoted {c : Char} (hc : isUnquoted c = true) :
    isBlank c = false ∧ isQuote c = false ∧ c ≠ '>' := by
  unfold isUnquoted at hc
  simpa [and_assoc] using hc

theorem inAttributeName_of_isNameChar {c : Char}
    (hc : TaggedText.isNameChar c = true) : inAttributeName c = true := by
  have hnot : c ∉ ['/', '=', '>'] := not_mem_of_class (by decide) hc
  unfold inAttributeName
  rw [isSpace_of_isBlank (TaggedText.isBlank_of_isNameChar hc),
    Bool.false_or, Bool.not_eq_true', List.contains_eq_mem,
    decide_eq_false_iff_not]
  exact hnot

-- ============================================================ the grammar

/-- A space. -/
abbrev Space := {c : Char // isSpace c = true}

/-- A value without quotes. -/
structure UnquotedValue where
  text : Text
  ne_nil : text ≠ []
  unquoted : ∀ c ∈ text, isUnquoted c = true

/-- An attribute with such a value, and the space before it. -/
structure UnquotedAttribute where
  lead : Space
  name : TaggedText.AttributeName
  before : List Space
  after : List Space
  value : UnquotedValue

/-- The attribute as it is written. -/
def UnquotedAttribute.written (a : UnquotedAttribute) : Text :=
  a.lead.val :: (a.name.text ++ (a.before.map Subtype.val
    ++ '=' :: (a.after.map Subtype.val ++ a.value.text)))

/-- Whether all blanks of a part are spaces. -/
def Spaced : TaggedText.Part → Prop
  | .blank b => isSpace b.val = true
  | .attr a => isSpace a.lead.val = true
    ∧ ∀ v ∈ a.assigned, ∀ b ∈ v.before ++ v.after, isSpace b.val = true

/-- What stands between the name of a tag and its end: spaces and
attributes. -/
inductive Part where
  | tagged (p : TaggedText.Part) (spaced : Spaced p)
  | unquoted (a : UnquotedAttribute)

namespace Part

/-- The part as it is written. -/
def written : Part → Text
  | .tagged p _ => p.written
  | .unquoted a => a.written

/-- The attribute that HTML reads. -/
def attribute? : Part → Option Attribute
  | .tagged (.blank _) _ => none
  | .tagged (.attr a) _ => some ⟨a.name.text.asciiLower,
    match a.assigned with
    | none => []
    | some v => v.value.text⟩
  | .unquoted a => some ⟨a.name.text.asciiLower, a.value.text⟩

end Part

-- ========================================================= what is read

theorem reads_lead {c : Char} (hc : isSpace c = true)
    (n : TaggedText.AttributeName) :
    between.Reads (c :: n.text) [] (inName n.text.asciiLower) :=
  (reads_name_between n.ne_nil fun d hd =>
    inAttributeName_of_isNameChar (n.nameChar d hd)).cons
    (fun _ => ne_of_isSpace hc) (step_between_of_isSpace c hc)

/-- Behind a name, an equals sign with spaces on either side of it. -/
theorem reads_equals (n : Text) {before after : Text}
    (hbefore : ∀ c ∈ before, isSpace c = true)
    (hafter : ∀ c ∈ after, isSpace c = true) :
    (inName n).Reads (before ++ '=' :: after) [] (beforeValue n) := by
  have hvalue := reads_spaces (step_beforeValue_of_isSpace n) hafter
  have hdirect : (inName n).step '=' = ([], beforeValue n) := rfl
  have hbehind : (behindName n).step '=' = ([], beforeValue n) := rfl
  cases before with
  | nil => exact hvalue.cons (fun _ => by decide) hdirect
  | cons c before =>
    obtain ⟨hc, hbefore⟩ := List.forall_mem_cons.1 hbefore
    have hstep : (inName n).step c = ([], behindName n) := by
      rw [step, if_pos hc]
    have hequals : (behindName n).Reads ('=' :: after) [] (beforeValue n) :=
      hvalue.cons (fun _ => by decide) hbehind
    exact ((reads_spaces (step_behindName_of_isSpace n) hbefore).append
      hequals).cons (fun _ => ne_of_isSpace hc) hstep

/-- A value is read as it is written. -/
theorem reads_value (n : Text) (v : TaggedText.QuotedValue) :
    (beforeValue n).Reads v.written [⟨n, v.text⟩] between := by
  have hquote := isQuote_iff.1 v.quote_isQuote
  have hspace : isSpace v.quote = false :=
    isSpace_of_isBlank (isBlank_of_isQuote v.quote_isQuote)
  have hstep : (beforeValue n).step v.quote
      = ([], quoted v.quote n []) := by
    rw [step, hspace, if_neg Bool.false_ne_true, if_pos hquote]
  have hend : v.quote ≠ '>' := by
    rcases hquote with h | h <;> rw [h] <;> decide
  exact (reads_quoted n [] v.unquoted).cons (fun _ => hend) hstep

theorem reads_unquotedValue (n : Text) (v : UnquotedValue) :
    (beforeValue n).Reads v.text [] (unquoted n v.text) := by
  obtain ⟨c, t, htext⟩ := List.exists_cons_of_ne_nil v.ne_nil
  have hall := v.unquoted
  rw [htext] at hall ⊢
  obtain ⟨hc, ht⟩ := List.forall_mem_cons.1 hall
  obtain ⟨hblank, hquote, hend⟩ := of_isUnquoted hc
  have hnot : ¬ (c = '"' ∨ c = '\'') :=
    not_or.2 (isQuote_eq_false_iff.1 hquote)
  have hstep : (beforeValue n).step c = ([], unquoted n [c]) := by
    rw [step, isSpace_of_isBlank hblank, if_neg Bool.false_ne_true,
      if_neg hnot]
  exact (reads_unquoted n [c] fun d hd =>
    ⟨isSpace_of_isBlank (of_isUnquoted (ht d hd)).1,
      (of_isUnquoted (ht d hd)).2.2⟩).cons (fun _ => hend) hstep

theorem isSpace_of_mem (spaces : List Space) :
    ∀ c ∈ spaces.map Subtype.val, isSpace c = true := by
  intro c hc
  obtain ⟨b, -, rfl⟩ := List.mem_map.1 hc
  exact b.2

/-- A quoted attribute is read wherever attributes may stand, and whatever
follows. -/
theorem reads_assigned {a : TaggedText.Attribute} (ha : Spaced (.attr a))
    {v : TaggedText.Assigned} (hv : a.assigned = some v) :
    between.Reads a.written [⟨a.name.text.asciiLower, v.value.text⟩]
      between := by
  obtain ⟨hlead, hspaces⟩ := ha
  have hall := hspaces v hv
  have hblanks {blanks : List Blank} (h : blanks ⊆ v.before ++ v.after) :
      ∀ c ∈ blanks.map Subtype.val, isSpace c = true := by
    intro c hc
    obtain ⟨b, hb, rfl⟩ := List.mem_map.1 hc
    exact hall b (h hb)
  have hequals := reads_equals a.name.text.asciiLower
    (hblanks (List.subset_append_left _ _))
    (hblanks (List.subset_append_right _ _))
  have hread := ((reads_lead hlead a.name).append hequals).append
    (reads_value _ v.value)
  have hwritten : a.written = a.lead.val :: a.name.text
      ++ (v.before.map Subtype.val ++ '=' :: v.after.map Subtype.val)
      ++ v.value.written := by
    unfold TaggedText.Attribute.written TaggedText.Attribute.ending
      TaggedText.Attribute.head TaggedText.Assigned.written
    rw [hv]
    simp
  rw [hwritten]
  exact hread

theorem UnquotedAttribute.reads_written (a : UnquotedAttribute) :
    between.Reads a.written [] (unquoted a.name.text.asciiLower
      a.value.text) := by
  have hread := ((reads_lead a.lead.2 a.name).append
    (reads_equals _ (isSpace_of_mem a.before)
      (isSpace_of_mem a.after))).append
    (reads_unquotedValue a.name.text.asciiLower a.value)
  have hwritten : a.written = a.lead.val :: a.name.text
      ++ (a.before.map Subtype.val ++ '=' :: a.after.map Subtype.val)
      ++ a.value.text := by
    simp [written]
  rw [hwritten]
  exact hread

-- ========================================================= all attributes

namespace Part

/-- What may follow attributes may follow them where a part stands between. -/
theorem rests_written (p : Part) {s : Text} (hs : Rests s) :
    Rests (p.written ++ s) := by
  have hname {c : Char} (hc : isSpace c = true)
      (n : TaggedText.AttributeName) (t : Text) :
      Rests (c :: (n.text ++ t)) := by
    obtain ⟨d, name, htext⟩ := List.exists_cons_of_ne_nil n.ne_nil
    have hd : inAttributeName d = true :=
      inAttributeName_of_isNameChar (n.nameChar d (by rw [htext]; simp))
    obtain ⟨hspace, -, hequals, -⟩ := of_inAttributeName hd
    refine ⟨fun e he => ?_, fun e he => ?_⟩
    · cases he
      exact Or.inl hc
    · rw [List.dropWhile_cons_of_pos hc, htext, List.cons_append,
        List.dropWhile_cons_of_neg (by rw [hspace]; decide)] at he
      cases he
      exact hequals
  cases p with
  | unquoted a =>
    have hrests := hname a.lead.2 a.name (a.before.map Subtype.val
      ++ '=' :: (a.after.map Subtype.val ++ a.value.text) ++ s)
    rw [← List.append_assoc] at hrests
    exact hrests
  | tagged p hp =>
    cases p with
    | attr a =>
      have hrests := hname hp.1 a.name (a.ending ++ s)
      rw [← List.append_assoc] at hrests
      exact hrests
    | blank b =>
      have hb : isSpace b.val = true := hp
      refine ⟨fun e he => ?_, ?_⟩
      · cases he
        exact Or.inl hb
      · show ∀ c ∈ ((b.val :: s).dropWhile isSpace).head?, c ≠ '='
        rw [List.dropWhile_cons_of_pos hb]
        exact hs.value

/-- Attributes are read one after the other. -/
theorem attributes?_append (p : Part) {s : Text} (hs : Rests s) :
    between.attributes? (p.written ++ s)
      = (between.attributes? s).map (p.attribute?.toList ++ ·) := by
  cases p with
  | unquoted a =>
    show between.attributes? (a.written ++ s) = _
    rw [a.reads_written s, attributes?_unquoted _ _ hs, Option.map_map]
    rfl
  | tagged p hp =>
    cases p with
    | blank b =>
      exact (reads_spaces step_between_of_isSpace
        (List.forall_mem_singleton.2 hp)) s
    | attr a =>
      cases hassigned : a.assigned with
      | some v =>
        show between.attributes? (a.written ++ s) = _
        rw [reads_assigned hp hassigned s]
        unfold attribute?
        dsimp only
        rw [hassigned]
        rfl
      | none =>
        have hwritten : a.written = a.lead.val :: a.name.text := by
          unfold TaggedText.Attribute.written TaggedText.Attribute.ending
          rw [hassigned]
          exact List.append_nil _
        show between.attributes? (a.written ++ s) = _
        rw [hwritten, reads_lead hp.1 a.name s, attributes?_inName _ hs,
          Option.map_map]
        unfold attribute?
        dsimp only
        rw [hassigned]
        rfl

end Part

theorem rests_flatMap_written (parts : List Part) {s : Text}
    (hs : Rests s) : Rests (parts.flatMap Part.written ++ s) := by
  induction parts with
  | nil => exact hs
  | cons p parts ih =>
    rw [List.flatMap_cons, List.append_assoc]
    exact p.rests_written ih

/-- HTML reads attributes as they are written. -/
theorem attributes?_written (parts : List Part) {s : Text} (hs : Rests s) :
    between.attributes? (parts.flatMap Part.written ++ s)
      = (between.attributes? s).map
        (parts.filterMap Part.attribute? ++ ·) := by
  induction parts with
  | nil => exact Option.map_id_apply.symm
  | cons p parts ih =>
    rw [List.flatMap_cons, List.append_assoc,
      p.attributes?_append (rests_flatMap_written parts hs), ih,
      Option.map_map]
    refine congrArg (Option.map · _) (funext fun more => ?_)
    cases hp : p.attribute? <;> simp [hp]

theorem rests_end (s : Text) : Rests ('>' :: s) where
  head c hc := by
    cases hc
    exact Or.inr rfl
  value c hc := by
    cases hc
    decide

/-- Up to the end of the tag. -/
theorem attributes?_written_end (parts : List Part) (s : Text) :
    between.attributes? (parts.flatMap Part.written ++ '>' :: s)
      = some (parts.filterMap Part.attribute?) := by
  rw [attributes?_written parts (rests_end s), attributes?_end rfl]
  exact congrArg some (List.append_nil _)

-- ================================================================= tags

/-- Behind its name, a tag is its attributes. -/
theorem startTag?_append {c : Char} {name s : Text}
    (hc : c.isAlpha = true) (hname : ∀ d ∈ c :: name, inTagName d = true)
    (hs : ∀ d ∈ s.head?, inTagName d = false) :
    startTag? ('<' :: c :: (name ++ s))
      = (between.attributes? s).map (⟨Text.asciiLower (c :: name), ·⟩) := by
  have hend : s.takeWhile inTagName = [] ∧ s.dropWhile inTagName = s := by
    cases s with
    | nil => exact ⟨rfl, rfl⟩
    | cons d s =>
      have hd : ¬ inTagName d = true := by
        rw [hs d rfl]
        exact Bool.false_ne_true
      exact ⟨List.takeWhile_cons_of_neg hd, List.dropWhile_cons_of_neg hd⟩
  rw [startTag?, if_pos hc, ← List.cons_append,
    List.takeWhile_append_of_pos hname, List.dropWhile_append_of_pos hname,
    hend.1, hend.2, List.append_nil]

end ComponentMarkdown.Html
