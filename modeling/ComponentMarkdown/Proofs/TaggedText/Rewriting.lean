/-
What becomes of a tagged text, part by part. Self-closing iframes get a
closing tag (`closed`), attribute names with a known mixed-case spelling are
lowered (`lowered`), and callouts become containers (`contained`). Each step
leaves a tagged text.

No step drops a quoted value or changes one, but for the classes that are
merged into those of a container (`keptValues_sublist`).
-/
import ComponentMarkdown.Proofs.Rule.Substitutions
import ComponentMarkdown.Proofs.TaggedText.Grammar

namespace ComponentMarkdown.TaggedText

open Markup

-- ========================================== attributes, one by one

section

variable (f : Attribute → Attribute)

/-- A part with its attribute replaced. -/
def Part.map : Part → Part
  | .blank b => .blank b
  | .attr a => .attr (f a)

/-- The text with the attributes of its tags replaced one by one. -/
def mapAttributes (page : TaggedText) : TaggedText :=
  page.mapParts (Part.map f)

end

-- ============================================================= trimming

/-- Parts without the blanks they end with. -/
def trimmed : List Part → List Part
  | [] => []
  | .blank b :: rest =>
    match trimmed rest with
    | [] => []
    | kept => .blank b :: kept
  | .attr a :: rest => .attr a :: trimmed rest

/-- The blanks go, the attributes stay. -/
theorem attributes_trimmed (parts : List Part) :
    (trimmed parts).filterMap Part.attribute?
      = parts.filterMap Part.attribute? := by
  induction parts with
  | nil => rfl
  | cons p parts ih =>
    cases p with
    | attr a => exact congrArg (a :: ·) ih
    | blank b =>
      show (match trimmed parts with
        | [] => []
        | kept => Part.blank b :: kept).filterMap Part.attribute? = _
      cases hkept : trimmed parts with
      | nil =>
        rw [hkept] at ih
        exact ih
      | cons q kept =>
        rw [hkept] at ih
        exact ih

-- ============================================================= iframes

/-- Whether the tag is an iframe that closes itself. -/
def OpenTag.isClosedIframe (tag : OpenTag Part) : Bool :=
  tag.name.text == "iframe".toList && tag.slash

/-- The item, or the two tags that a self-closing iframe becomes. -/
def Item.closed : Item Part → List (Item Part)
  | .opening tag =>
    if tag.isClosedIframe then
      [.opening { tag with parts := trimmed tag.parts, slash := false },
        .closing ⟨tag.name, []⟩]
    else [.opening tag]
  | item => [item]

/-- The text with its self-closing iframes closed by tags. -/
def closed (page : TaggedText) : TaggedText := page.flatMap Item.closed

-- ===================================================== attribute names

theorem isNameChar_toLower (c : Char) : isNameChar c.toLower = isNameChar c :=
  caseless (by decide) c

/-- The name in small letters. -/
def AttributeName.asciiLower (n : AttributeName) : AttributeName where
  text := n.text.asciiLower
  ne_nil h := n.ne_nil (List.map_eq_nil_iff.1 h)
  nameChar := by
    intro c hc
    obtain ⟨d, hd, rfl⟩ := List.mem_map.1 hc
    rw [isNameChar_toLower]
    exact n.nameChar d hd

namespace Attribute

/-- The known mixed-case name of the attribute, as the rule for casing
reads it. -/
def mixedCase? (a : Attribute) : Option MixedCaseName :=
  if a.name.text.head? = some ':' then
    if a.name.text.tail ∈ MixedCaseName.known then
      some ⟨[a.lead.val, ':'], a.name.text.tail⟩
    else none
  else if a.name.text ∈ MixedCaseName.known then
    some ⟨[a.lead.val], a.name.text⟩
  else none

/-- The attribute with its name in small letters, if it is a known one. -/
def lowered (a : Attribute) : Attribute :=
  if a.mixedCase?.isSome then { a with name := a.name.asciiLower } else a

end Attribute

/-- The text with its known attribute names in small letters. -/
def lowered (page : TaggedText) : TaggedText :=
  page.mapAttributes Attribute.lowered

-- ============================================================ callouts

/-- The name of a container's tag. -/
def containerName : TagName where
  first := 'd'
  rest := "iv".toList
  first_alpha := by decide
  rest_nameChar := by decide +kernel

/-- The class attribute of a container. -/
def containerClass (kind : CalloutKind) (classes : Classes) : Attribute where
  lead := ⟨' ', isBlank_space⟩
  name := ⟨"class".toList, class_ne_nil, nameChar_class⟩
  assigned := some {
    before := []
    after := []
    value := {
      quote := '"'
      text := "callout ".toList ++ kind.className ++ addedClasses classes.val
      quote_isQuote := isQuote_double
      unquoted := by
        have hkinds : ∀ k ∈ CalloutKind.all, '"' ∉ k.className := by decide
        have hkind := hkinds kind (by cases kind <;> decide)
        have hadded : '"' ∉ addedClasses classes.val := by
          unfold addedClasses
          split
          · exact List.not_mem_nil
          · rw [List.mem_cons, not_or]
            exact ⟨by decide, fun h => classes.2 (Text.mem_of_mem_trim h)⟩
        rw [List.mem_append, List.mem_append]
        rintro ((h | h) | h)
        · exact absurd h (by decide)
        · exact hkind h
        · exact hadded h } }

/-- Whether a part is a class attribute, bound ones included. -/
def Part.isClass : Part → Bool
  | .blank _ => false
  | .attr a => a.isClass

/-- The container that a callout becomes, if its classes can be merged. -/
def OpenTag.container? (kind : CalloutKind) (tag : OpenTag Part) :
    Option (OpenTag Part) :=
  tag.classes?.map fun classes => {
    name := containerName
    parts := .attr (containerClass kind classes)
      :: (trimmed tag.parts).filter fun p => !p.isClass
    slash := false }

/-- The closing tag of a container. -/
def containerEnd : Item Part := .closing ⟨containerName, []⟩

/-- What a part of the text becomes if it is converted. -/
def Item.container : Item Part → List (Item Part)
  | .text t => [.text t]
  | .closing _ => [containerEnd]
  | .opening tag =>
    match tag.name.kind?.bind fun kind => tag.container? kind with
    | none => [.opening tag]
    | some new =>
      if tag.slash then [.opening new, containerEnd] else [.opening new]

/-- What is read as the attributes of a tag: all up to its end, but of
blanks before a slash only one that directly follows the name. -/
def OpenTag.attributeText (tag : OpenTag Part) : Text :=
  if tag.slash then
    match trimmed tag.parts with
    | [] => (tag.parts.flatMap Part.written).take 1
    | kept => kept.flatMap Part.written
  else tag.parts.flatMap Part.written

/-- The callout tag that a part of the text is. -/
def Item.callout? : Item Part → Option CalloutTag
  | .text _ => none
  | .closing tag => tag.name.kind?.map fun kind =>
    ⟨true, kind, tag.tail.map Subtype.val, false⟩
  | .opening tag => tag.name.kind?.map fun kind =>
    ⟨false, kind, tag.attributeText, tag.slash⟩

/-- What a part of the text becomes, and what is open behind it. -/
def Item.contained (item : Item Part) (opened : OpenCallouts) :
    List (Item Part) × OpenCallouts :=
  match item.callout? with
  | none => ([item], opened)
  | some tag =>
    (if (tag.convert? opened).1.isSome then item.container else [item],
      (tag.convert? opened).2)

/-- The text with its callouts made containers. -/
def contained (opened : OpenCallouts) : TaggedText → TaggedText
  | [] => []
  | item :: page =>
    (item.contained opened).1 ++ contained (item.contained opened).2 page

-- ============================================================ together

/-- What becomes of a tagged text. -/
def rewritten (page : TaggedText) : TaggedText :=
  contained [] page.closed.lowered

-- =============================================== values, step by step

namespace OpenTag

variable {tag tag' : OpenTag Part}

/-- The values of a tag are those of its attributes, whatever blanks there are.
-/
theorem keptValues_of_same (hname : tag'.name = tag.name)
    (hattributes : tag'.attributes = tag.attributes) :
    tag'.keptValues = tag.keptValues := by
  unfold keptValues isMerged classes? values
  rw [hname, hattributes]

/-- No value is kept that is not there. -/
theorem keptValues_sublist_values (tag : OpenTag Part) :
    tag.keptValues.Sublist tag.values := by
  unfold keptValues
  split
  · exact List.filter_sublist.filterMap _
  · exact List.Sublist.refl _

end OpenTag

/-- An iframe with its closing tag holds the same values. -/
theorem Item.values_closed (item : Item Part) :
    item.closed.flatMap Item.values = item.values
      ∧ item.closed.flatMap Item.keptValues = item.keptValues := by
  cases item with
  | text t => exact ⟨rfl, rfl⟩
  | closing tag => exact ⟨rfl, rfl⟩
  | opening tag =>
    unfold closed
    dsimp only
    split
    · have hattributes : OpenTag.attributes { tag with
            parts := trimmed tag.parts, slash := false }
          = tag.attributes := attributes_trimmed tag.parts
      refine ⟨?_, ?_⟩
      · show OpenTag.values _ ++ [] = tag.values
        unfold OpenTag.values
        rw [hattributes, List.append_nil]
      · show OpenTag.keptValues _ ++ [] = tag.keptValues
        rw [List.append_nil]
        exact OpenTag.keptValues_of_same rfl hattributes
    · exact ⟨List.append_nil _, List.append_nil _⟩

/-- Closing iframes drops no value. -/
theorem values_closed (page : TaggedText) :
    page.closed.values = page.values
      ∧ page.closed.keptValues = page.keptValues := by
  unfold closed values keptValues
  rw [List.flatMap_assoc, List.flatMap_assoc]
  exact ⟨congrArg (page.flatMap ·) (funext fun i => i.values_closed.1),
    congrArg (page.flatMap ·) (funext fun i => i.values_closed.2)⟩

namespace Attribute

/-- The name of what is lowered is a known one, perhaps behind a colon. -/
theorem exists_known_of_mixedCase {a : Attribute} (h : a.mixedCase?.isSome) :
    ∃ name ∈ MixedCaseName.known, a.name.text ∈ [name, ':' :: name] := by
  unfold mixedCase? at h
  split at h
  · rename_i hhead
    split at h
    · rename_i hmem
      obtain ⟨name, hname⟩ := List.head?_eq_some_iff.1 hhead
      rw [hname, List.tail_cons] at hmem
      exact ⟨name, hmem, by simp [hname]⟩
    · cases h
  · split at h
    · rename_i hmem
      exact ⟨a.name.text, hmem, by simp⟩
    · cases h

/-- What is lowered is no class attribute, before or after. -/
theorem not_class_of_mixedCase {a : Attribute} (h : a.mixedCase?.isSome) :
    a.isClass = false ∧ a.lowered.isClass = false ∧ a.classes? = none
      ∧ a.lowered.classes? = none := by
  have hall : ∀ name ∈ MixedCaseName.known, ∀ t ∈ [name, ':' :: name],
      (ClassUse.spellings.any fun p => p.1 == t) = false
        ∧ (ClassUse.spellings.any fun p => p.1 == t.asciiLower) = false
        ∧ t ≠ "class".toList ∧ t.asciiLower ≠ "class".toList := by
    decide
  obtain ⟨name, hknown, hmem⟩ := exists_known_of_mixedCase h
  obtain ⟨hclass, hlower, hne, hneLower⟩ := hall name hknown _ hmem
  unfold lowered
  rw [if_pos h]
  exact ⟨hclass, hlower, if_neg hne, if_neg hneLower⟩

/-- Lowering makes no class attribute, and unmakes none. -/
theorem isClass_lowered (a : Attribute) : a.lowered.isClass = a.isClass := by
  by_cases h : a.mixedCase?.isSome
  · obtain ⟨hclass, hlower, -⟩ := not_class_of_mixedCase h
    rw [hclass, hlower]
  · unfold lowered
    rw [if_neg h]

/-- What classes an attribute gives is no matter of lowering, -/
theorem classes?_lowered (a : Attribute) :
    a.lowered.classes? = a.classes? := by
  by_cases h : a.mixedCase?.isSome
  · obtain ⟨-, -, hclass, hlower⟩ := not_class_of_mixedCase h
    rw [hclass, hlower]
  · unfold lowered
    rw [if_neg h]

/-- and its value is not either. -/
theorem value?_lowered (a : Attribute) : a.lowered.value? = a.value? := by
  unfold lowered
  split <;> rfl

end Attribute

/-- Lowering names tells no attributes apart. -/
theorem filter_lowered {p : Attribute → Bool}
    (hp : ∀ a, p a.lowered = p a) (l : List Attribute) :
    (l.map Attribute.lowered).filter p
      = (l.filter p).map Attribute.lowered := by
  rw [List.filter_map]
  exact congrArg (fun q => (l.filter q).map Attribute.lowered) (funext hp)

theorem filterMap_value?_lowered (l : List Attribute) :
    (l.map Attribute.lowered).filterMap Attribute.value?
      = l.filterMap Attribute.value? := by
  rw [List.filterMap_map]
  exact congrArg (List.filterMap · l) (funext Attribute.value?_lowered)

namespace OpenTag

variable (tag : OpenTag Part)

/-- With attributes replaced one by one, those of a tag are. -/
theorem attributes_map (f : Attribute → Attribute) :
    (tag.mapParts (Part.map f)).attributes = tag.attributes.map f := by
  unfold attributes mapParts
  rw [List.filterMap_map, List.map_filterMap]
  refine congrArg (List.filterMap · tag.parts) (funext fun p => ?_)
  cases p <;> rfl

/-- Lowering names drops no value of a tag. -/
theorem values_lowered :
    (tag.mapParts (Part.map Attribute.lowered)).values = tag.values := by
  unfold values
  rw [attributes_map, filterMap_value?_lowered]

theorem classes?_lowered :
    (tag.mapParts (Part.map Attribute.lowered)).classes? = tag.classes? := by
  unfold classes?
  rw [attributes_map, filter_lowered Attribute.isClass_lowered]
  cases tag.attributes.filter Attribute.isClass with
  | nil => rfl
  | cons a more =>
    cases more with
    | nil => exact a.classes?_lowered
    | cons b more => rfl

theorem keptValues_lowered :
    (tag.mapParts (Part.map Attribute.lowered)).keptValues
      = tag.keptValues := by
  have hmerged : (tag.mapParts (Part.map Attribute.lowered)).isMerged
      = tag.isMerged := by
    unfold isMerged
    rw [classes?_lowered]
    rfl
  have hclass (a : Attribute) : (!a.lowered.isClass) = !a.isClass :=
    congrArg Bool.not a.isClass_lowered
  unfold keptValues
  rw [hmerged, values_lowered, attributes_map, filter_lowered hclass,
    filterMap_value?_lowered]

end OpenTag

/-- Lowering names drops no value of the text. -/
theorem values_lowered (page : TaggedText) :
    page.lowered.values = page.values
      ∧ page.lowered.keptValues = page.keptValues := by
  have hitem (item : Item Part) :
      (item.mapParts (Part.map Attribute.lowered)).values = item.values
        ∧ (item.mapParts (Part.map Attribute.lowered)).keptValues
          = item.keptValues := by
    cases item with
    | text t => exact ⟨rfl, rfl⟩
    | closing tag => exact ⟨rfl, rfl⟩
    | opening tag => exact ⟨tag.values_lowered, tag.keptValues_lowered⟩
  unfold lowered mapAttributes Tagged.mapParts values keptValues
  rw [List.flatMap_map, List.flatMap_map]
  exact ⟨congrArg (page.flatMap ·) (funext fun i => (hitem i).1),
    congrArg (page.flatMap ·) (funext fun i => (hitem i).2)⟩

/-- A tag of the text with closed iframes was one before. -/
theorem exists_opening_of_closed {page : TaggedText} {tag : OpenTag Part}
    (h : .opening tag ∈ page.closed) :
    ∃ old, .opening old ∈ page ∧ tag.name = old.name
      ∧ tag.values = old.values := by
  obtain ⟨item, hitem, htag⟩ := List.mem_flatMap.1 h
  cases item with
  | text t => cases List.mem_singleton.1 htag
  | closing tag => cases List.mem_singleton.1 htag
  | opening old =>
    refine ⟨old, hitem, ?_⟩
    unfold Item.closed at htag
    dsimp only at htag
    split at htag
    · rcases List.mem_cons.1 htag with heq | htag
      · cases heq
        exact ⟨rfl, congrArg (List.filterMap Attribute.value?)
          (attributes_trimmed old.parts)⟩
      · cases List.mem_singleton.1 htag
    · cases List.mem_singleton.1 htag
      exact ⟨rfl, rfl⟩

/-- And so was one of the text with lowered names. -/
theorem exists_opening_of_lowered {page : TaggedText} {tag : OpenTag Part}
    (h : .opening tag ∈ page.lowered) :
    ∃ old, .opening old ∈ page ∧ tag.name = old.name
      ∧ tag.values = old.values := by
  obtain ⟨item, hitem, hmap⟩ := List.mem_map.1 h
  cases item with
  | text t => cases hmap
  | closing tag => cases hmap
  | opening old =>
    cases hmap
    exact ⟨old, hitem, rfl, old.values_lowered⟩

-- ======================================================= kept values

/-- Without the parts that are classes, a tag has its other attributes. -/
theorem attributes_filter (parts : List Part) :
    (parts.filter fun p => !p.isClass).filterMap Part.attribute?
      = (parts.filterMap Part.attribute?).filter fun a => !a.isClass := by
  induction parts with
  | nil => rfl
  | cons p parts ih =>
    cases p with
    | blank b => exact ih
    | attr a =>
      have hclass : (Part.attr a).isClass = a.isClass := rfl
      rw [List.filter_cons, hclass, List.filterMap_cons]
      dsimp only [Part.attribute?]
      rw [List.filter_cons]
      cases a.isClass with
      | true => exact ih
      | false => exact congrArg (a :: ·) ih

/-- A container holds the values of its callout but for the class. -/
theorem OpenTag.keptValues_container {tag new : OpenTag Part}
    {kind : CalloutKind}
    (hkind : tag.name.kind? = some kind)
    (h : tag.container? kind = some new) :
    tag.keptValues.Sublist new.values := by
  obtain ⟨classes, hclasses, rfl⟩ := Option.map_eq_some_iff.1 h
  have hmerged : tag.isMerged = true := by
    unfold isMerged
    rw [hkind, hclasses]
    rfl
  unfold keptValues
  rw [if_pos hmerged]
  refine List.Sublist.trans ?_ (List.sublist_cons_self
    (Option.get (containerClass kind classes).value? rfl) _)
  have hothers : ((trimmed tag.parts).filter fun p => !p.isClass).filterMap
        Part.attribute?
      = tag.attributes.filter fun a => !a.isClass := by
    rw [attributes_filter, attributes_trimmed]
    rfl
  exact congrArg (List.filterMap Attribute.value?) hothers ▸
    List.Sublist.refl _

/-- An item that stays holds its values. -/
theorem Item.keptValues_sublist_values (item : Item Part) :
    item.keptValues.Sublist ([item].flatMap Item.values) := by
  rw [List.flatMap_singleton]
  cases item with
  | text t => exact List.Sublist.refl _
  | closing tag => exact List.Sublist.refl _
  | opening tag => exact tag.keptValues_sublist_values

/-- What an item is converted to holds its values but for a merged class. -/
theorem Item.keptValues_container (item : Item Part) :
    item.keptValues.Sublist (item.container.flatMap Item.values) := by
  cases item with
  | text t => exact List.Sublist.refl _
  | closing tag => exact List.Sublist.refl _
  | opening tag =>
    unfold container
    dsimp only
    split
    · exact Item.keptValues_sublist_values (.opening tag)
    · rename_i new hnew
      obtain ⟨kind, hkind, hnew⟩ := Option.bind_eq_some_iff.1 hnew
      have hkept := OpenTag.keptValues_container hkind hnew
      split
      · exact hkept.trans (List.sublist_append_left _ _)
      · exact hkept.trans (List.sublist_append_left _ _)

/-- What becomes of an item holds them, whatever is open before it. -/
theorem Item.keptValues_contained (item : Item Part) (opened : OpenCallouts) :
    item.keptValues.Sublist
      ((item.contained opened).1.flatMap Item.values) := by
  unfold contained
  split
  · exact item.keptValues_sublist_values
  · split
    · exact item.keptValues_container
    · exact item.keptValues_sublist_values

/-- The text with containers holds the kept values, in order. -/
theorem keptValues_contained (page : TaggedText) (opened : OpenCallouts) :
    page.keptValues.Sublist (contained opened page).values := by
  induction page generalizing opened with
  | nil => exact List.Sublist.refl _
  | cons item page ih =>
    unfold contained values keptValues
    rw [List.flatMap_cons, List.flatMap_append]
    exact (item.keptValues_contained opened).append (ih _)

/-- The kept values are those of the rewritten text, in order. -/
theorem keptValues_sublist (page : TaggedText) :
    page.keptValues.Sublist page.rewritten.values := by
  rw [← page.values_closed.2, ← page.closed.values_lowered.2]
  exact keptValues_contained _ _

end ComponentMarkdown.TaggedText
