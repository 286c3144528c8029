/-
One opening callout tag between texts without tags, with any attributes that
are bare or have a quoted value. There are three cases, by the attributes
whose name is that of a class, bound or not. Without any, the tag becomes a
container with all its attributes. With one only, a class that can be
written in double quotes, its value is merged into the class of the
container, and the attribute and the blank before it are cut out of the
others. Any other tag stays (`text_apply_callouts_lone`).
-/
import ComponentMarkdown.Proofs.TaggedText.Callouts

namespace ComponentMarkdown.TaggedText

open Markup

-- ========================================================= the own class

/-- A tag has one class attribute, between these parts, and it gives
classes that can be merged into others. -/
structure OpenTag.OwnClass (tag : OpenTag Part) (front back : List Part)
    (a : Attribute) (classes : Classes) : Prop where
  parts : tag.parts = front ++ .attr a :: back
  others : ∀ p ∈ front ++ back, p.isClass = false
  classes : a.classes? = some classes

/-- What has classes that can be merged is a class attribute. -/
theorem Attribute.isClass_of_classes? {a : Attribute} {classes : Classes}
    (h : a.classes? = some classes) : a.isClass = true := by
  unfold classes? at h
  split at h
  · rename_i hname
    unfold isClass
    rw [hname]
    decide
  · cases h

/-- Only the blanks behind the last attribute are trimmed. -/
theorem trimmed_append_attr (front : List Part) (a : Attribute)
    (back : List Part) :
    trimmed (front ++ .attr a :: back) = front ++ .attr a :: trimmed back := by
  induction front with
  | nil => rfl
  | cons part front ih =>
    cases part with
    | attr b => exact congrArg (Part.attr b :: ·) ih
    | blank b =>
      rw [List.cons_append, trimmed, ih]
      cases front <;> rfl

/-- Parts without a class attribute stay when class attributes are taken
out. -/
theorem filter_isClass_eq_self {parts : List Part}
    (h : ∀ p ∈ parts, p.isClass = false) :
    parts.filter (fun p => !p.isClass) = parts :=
  List.filter_eq_self.2 fun p hp => by rw [h p hp]; rfl

/-- A tag has no class attribute if no part is one. -/
theorem filter_class_eq_nil_iff (parts : List Part) :
    (parts.filterMap Part.attribute?).filter Attribute.isClass = []
      ↔ ∀ p ∈ parts, p.isClass = false := by
  rw [List.filter_eq_nil_iff]
  constructor
  · intro h p hp
    cases p with
    | blank b => rfl
    | attr b =>
      exact eq_false_of_ne_true
        (h b (List.mem_filterMap.2 ⟨.attr b, hp, rfl⟩))
  · intro h a ha
    obtain ⟨part, hpart, hattribute⟩ := List.mem_filterMap.1 ha
    cases part with
    | blank b => cases hattribute
    | attr b =>
      cases hattribute
      exact ne_true_of_eq_false (h _ hpart)

/-- The only class attribute stands between parts that are none. -/
theorem exists_of_filter_class {parts : List Part} {a : Attribute}
    (h : (parts.filterMap Part.attribute?).filter Attribute.isClass = [a]) :
    ∃ front back, parts = front ++ .attr a :: back
      ∧ ∀ p ∈ front ++ back, p.isClass = false := by
  induction parts with
  | nil => cases h
  | cons part parts ih =>
    cases hpart : part.isClass with
    | false =>
      have hrest : (parts.filterMap Part.attribute?).filter
          Attribute.isClass = [a] := by
        cases part with
        | blank b => exact h
        | attr b =>
          have hb : ¬ b.isClass = true := ne_true_of_eq_false hpart
          exact (List.filter_cons_of_neg hb).symm.trans h
      obtain ⟨front, back, rfl, hothers⟩ := ih hrest
      exact ⟨part :: front, back, rfl,
        List.forall_mem_cons.2 ⟨hpart, hothers⟩⟩
    | true =>
      cases part with
      | blank b => cases hpart
      | attr b =>
        have hb : b.isClass = true := hpart
        obtain ⟨rfl, hrest⟩ :=
          List.cons.inj ((List.filter_cons_of_pos hb).symm.trans h)
        exact ⟨[], parts, rfl, (filter_class_eq_nil_iff parts).1 hrest⟩

theorem mem_of_mem_trimmed {parts : List Part} {p : Part}
    (h : p ∈ trimmed parts) : p ∈ parts := by
  obtain ⟨⟨blanks, hblanks⟩, -⟩ := exists_trimmed parts
  rw [hblanks]
  exact List.mem_append_left _ h

namespace OpenTag

variable {tag : OpenTag Part} {front back : List Part} {a : Attribute}
  {classes : Classes}

/-- What is cut out of the attributes is the class attribute with the blank
before it. -/
theorem OwnClass.trimEnd_written (h : tag.OwnClass front back a classes) :
    Text.trimEnd (tag.parts.flatMap Part.written)
      = front.flatMap Part.written
        ++ (a.written ++ Text.trimEnd (back.flatMap Part.written)) := by
  rw [trimEnd_flatMap_written, h.parts, trimmed_append_attr,
    List.flatMap_append, List.flatMap_cons, trimEnd_flatMap_written]
  rfl

/-- Without the class, what is kept of a tag stands before and behind it. -/
theorem OwnClass.filter_trimmed (h : tag.OwnClass front back a classes) :
    ((trimmed tag.parts).filter fun p => !p.isClass).flatMap Part.written
      = front.flatMap Part.written
        ++ Text.trimEnd (back.flatMap Part.written) := by
  have hfront (p : Part) (hp : p ∈ front) : p.isClass = false :=
    h.others p (List.mem_append_left _ hp)
  have hback (p : Part) (hp : p ∈ trimmed back) : p.isClass = false :=
    h.others p (List.mem_append_right _ (mem_of_mem_trimmed hp))
  have hclass : (Part.attr a).isClass = true :=
    Attribute.isClass_of_classes? h.classes
  rw [h.parts, trimmed_append_attr, List.filter_append, List.filter_cons,
    hclass, filter_isClass_eq_self hfront, filter_isClass_eq_self hback,
    List.flatMap_append, trimEnd_flatMap_written]
  rfl

/-- The classes of a tag are those of its one class attribute. -/
theorem OwnClass.classes?_eq (h : tag.OwnClass front back a classes) :
    tag.classes? = some classes := by
  have hfront := (filter_class_eq_nil_iff front).2 fun p hp =>
    h.others p (List.mem_append_left back hp)
  have hback := (filter_class_eq_nil_iff back).2 fun p hp =>
    h.others p (List.mem_append_right front hp)
  have hclass : tag.attributes.filter Attribute.isClass = [a] := by
    unfold attributes
    rw [h.parts, List.filterMap_append, List.filter_append, hfront,
      List.nil_append, List.filterMap_cons]
    dsimp only [Part.attribute?]
    rw [List.filter_cons_of_pos (Attribute.isClass_of_classes? h.classes),
      hback]
  unfold classes?
  rw [hclass]
  exact h.classes

/-- A tag without a class attribute has no classes to merge. -/
theorem classes?_of_no_class (h : ∀ p ∈ tag.parts, p.isClass = false) :
    tag.classes? = some ⟨[], List.not_mem_nil⟩
      ∧ ((trimmed tag.parts).filter fun p => !p.isClass).flatMap Part.written
        = Text.trimEnd (tag.parts.flatMap Part.written) := by
  have hclass : tag.attributes.filter Attribute.isClass = [] :=
    (filter_class_eq_nil_iff tag.parts).2 h
  refine ⟨?_, ?_⟩
  · unfold classes?
    rw [hclass]
  · rw [filter_isClass_eq_self fun p hp => h p (mem_of_mem_trimmed hp),
      trimEnd_flatMap_written]

/-- There is no other tag with classes that can be merged. -/
theorem exists_ownClass (h : tag.classes? = some classes) :
    (∀ p ∈ tag.parts, p.isClass = false)
      ∨ ∃ front back a, tag.OwnClass front back a classes := by
  unfold classes? at h
  cases hclass : tag.attributes.filter Attribute.isClass with
  | nil => exact Or.inl ((filter_class_eq_nil_iff tag.parts).1 hclass)
  | cons a more =>
    rw [hclass] at h
    cases more with
    | cons b more => cases h
    | nil =>
      obtain ⟨front, back, hparts, hothers⟩ := exists_of_filter_class hclass
      exact Or.inr ⟨front, back, a, hparts, hothers, h⟩

/-- What stands in place of a callout of a kind in the end. -/
def converted (kind : CalloutKind) (tag : OpenTag Part) : Text :=
  match tag.classes? with
  | none => tag.written
  | some classes => kind.container classes.val
      (((trimmed tag.parts).filter fun p => !p.isClass).flatMap Part.written)
    ++ if tag.slash then CalloutTag.containerEnd else []

/-- The rule makes of the tag what it is converted to. -/
theorem convert?_eq_converted (kind : CalloutKind) (tag : OpenTag Part)
    (opened : OpenCallouts) :
    (CalloutTag.convert? ⟨false, kind, tag.attributeText, tag.slash⟩
        opened).1.getD tag.written
      = tag.converted kind := by
  have hcontainer := tag.container?_attributeText kind
  unfold converted
  rw [CalloutTag.convert?_of_opening rfl, hcontainer]
  cases tag.classes? <;> rfl

end OpenTag

-- ========================================================= the whole text

/-- A tag between texts without tags. -/
def lone (before : PlainText) (tag : OpenTag Part) (after : PlainText) :
    TaggedText :=
  [.text before, .opening tag, .text after]

theorem written_lone (before : PlainText) (tag : OpenTag Part)
    (after : PlainText) :
    (lone before tag after).written
      = before.text ++ (tag.written ++ after.text) := by
  simp [lone, Tagged.written, Item.written]

/-- The rule puts in the place of a lone callout what it is converted to. -/
theorem text_apply_callouts_eq_converted {kind : CalloutKind}
    {tag : OpenTag Part}
    (hname : tag.name.text = kind.tagName) {before after : PlainText}
    (hcode : '\x60' ∉ (lone before tag after).written) :
    (Rule.callouts.apply (lone before tag after).written).text
      = before.text ++ (tag.converted kind ++ after.text) := by
  have hkind : tag.name.kind? = some kind :=
    CalloutKind.named?_eq_some_iff.2 hname.symm
  have hread : Item.callout? (.opening tag)
      = some ⟨false, kind, tag.attributeText, tag.slash⟩ :=
    congrArg (Option.map _) hkind
  obtain ⟨hwritten, -⟩ := Item.contained_of_some hread []
  have htag : Tagged.written (Item.contained (.opening tag) []).1
      = tag.converted kind := hwritten.trans (tag.convert?_eq_converted kind [])
  have hpage : contained [] (lone before tag after)
      = .text before :: ((Item.contained (.opening tag) []).1
        ++ [.text after]) := rfl
  rw [text_apply_callouts_tagged hcode, hpage, ← htag]
  · simp [Tagged.written, Item.written]
  · intro tag' hmem hnone
    have heq : tag' = tag := by simpa [lone] using hmem
    rw [heq, hkind] at hnone
    cases hnone

/-- An opening callout tag without a class attribute becomes a container
with its attributes. One whose only class attribute can be merged becomes a
container with the others, none of them moved or respelled, and with its
classes. With any other class attributes it stays. A container is closed at
once if the tag closes itself. -/
theorem text_apply_callouts_lone {kind : CalloutKind} {tag : OpenTag Part}
    (hname : tag.name.text = kind.tagName) {before after : PlainText}
    (hcode : '\x60' ∉ (lone before tag after).written) :
    ((∀ p ∈ tag.parts, p.isClass = false) →
      (Rule.callouts.apply (lone before tag after).written).text
        = before.text ++ (kind.container []
              (Text.trimEnd (tag.parts.flatMap Part.written))
            ++ (if tag.slash then "</div>".toList else []) ++ after.text))
      ∧ (∀ front back a classes, tag.OwnClass front back a classes →
        Text.trimEnd (tag.parts.flatMap Part.written)
            = front.flatMap Part.written
              ++ (a.written ++ Text.trimEnd (back.flatMap Part.written))
          ∧ (Rule.callouts.apply (lone before tag after).written).text
            = before.text ++ (kind.container classes.val
                  (front.flatMap Part.written
                    ++ Text.trimEnd (back.flatMap Part.written))
                ++ (if tag.slash then "</div>".toList else [])
                ++ after.text))
      ∧ ((∃ p ∈ tag.parts, p.isClass = true) →
        (¬ ∃ front back a classes, tag.OwnClass front back a classes) →
          (Rule.callouts.apply (lone before tag after).written).text
            = (lone before tag after).written) := by
  rw [text_apply_callouts_eq_converted hname hcode]
  unfold OpenTag.converted
  refine ⟨fun h => ?_, fun front back a classes h => ?_, fun hclass h => ?_⟩
  · obtain ⟨hclasses, hparts⟩ := OpenTag.classes?_of_no_class h
    rw [hclasses, ← hparts]
    rfl
  · refine ⟨h.trimEnd_written, ?_⟩
    rw [h.classes?_eq, ← h.filter_trimmed]
    rfl
  · cases hclasses : tag.classes? with
    | none => exact (written_lone before tag after).symm
    | some classes =>
      rcases OpenTag.exists_ownClass hclasses with hnone | ⟨front, back, a, ha⟩
      · obtain ⟨p, hp, hpclass⟩ := hclass
        exact absurd hpclass (ne_true_of_eq_false (hnone p hp))
      · exact absurd ⟨front, back, a, classes, ha⟩ h

/-- The name of a note. -/
def noteTag : TagName := ⟨'N', "ote".toList, by decide, by decide +kernel⟩

/-- An attribute behind a space, with a quoted value. -/
def assigned (name : AttributeName) (value : QuotedValue) : Attribute :=
  ⟨⟨' ', isBlank_space⟩, name, some ⟨[], [], value⟩⟩

/-- An id whose value holds the end of a tag. -/
def idAttribute : Attribute :=
  assigned ⟨"id".toList, id_ne_nil, nameChar_id⟩
    ⟨'\'', "a>b".toList, isQuote_single, by decide⟩

/-- A class with blanks around its name. -/
def bigAttribute : Attribute :=
  assigned ⟨"class".toList, class_ne_nil, nameChar_class⟩
    ⟨'"', " big ".toList, isQuote_double, by decide⟩

/-- A title that looks like a class and the end of a tag. -/
def titleAttribute : Attribute :=
  assigned ⟨"title".toList, title_ne_nil, nameChar_title⟩
    ⟨'"', " class='c' />".toList, isQuote_double, by decide⟩

/-- The tag of a note that closes itself, with a class between other
attributes. -/
def bigNote : OpenTag Part :=
  ⟨noteTag, [.attr idAttribute, .attr bigAttribute, .attr titleAttribute,
    .blank ⟨' ', isBlank_space⟩], true⟩

/-- A note with a class, between attributes that look like the end of the tag
and another class. -/
theorem text_apply_callouts_lone_big :
    bigNote.name.text = CalloutKind.note.tagName
      ∧ '\x60' ∉ (lone ⟨"A ".toList, by decide⟩ bigNote
        ⟨" z".toList, by decide⟩).written
      ∧ (lone ⟨"A ".toList, by decide⟩ bigNote
          ⟨" z".toList, by decide⟩).written
        = ("A <Note id='a>b' class=\" big \" title=\" class='c' />\" />"
          ++ " z").toList
      ∧ (Rule.callouts.apply (lone ⟨"A ".toList, by decide⟩ bigNote
          ⟨" z".toList, by decide⟩).written).text
        = ("A <div class=\"callout callout-note big\" id='a>b'"
          ++ " title=\" class='c' />\"></div> z").toList := by
  have hname : bigNote.name.text = CalloutKind.note.tagName := by decide
  have hcode : '\x60' ∉ (lone ⟨"A ".toList, by decide⟩ bigNote
      ⟨" z".toList, by decide⟩).written := by decide +kernel
  have hclass : bigNote.OwnClass [.attr idAttribute]
      [.attr titleAttribute, .blank ⟨' ', by decide⟩] bigAttribute
      ⟨" big ".toList, by decide⟩ :=
    ⟨rfl, by decide, by decide⟩
  obtain ⟨-, hown, -⟩ := text_apply_callouts_lone hname hcode
  refine ⟨hname, hcode, by decide +kernel, (hown _ _ _ _ hclass).2.trans ?_⟩
  decide +kernel

end ComponentMarkdown.TaggedText
