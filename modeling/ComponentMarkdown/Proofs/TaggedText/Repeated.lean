/-
Tagged text that is rewritten again. Each of the three steps does nothing
the second time (`closed_closed`, `lowered_lowered`, `contained_contained`),
and it makes no difference which of two comes first (`closed_lowered`,
`closed_contained`, `lowered_contained`). So what one step has settled stays
settled through the others, and a text that has been through some of the
steps, in whatever order and however often, is left alone by all of these.

Only the callouts have to know what is open. The second time around, none
but the tags that stayed are there to be open (`OpenCallouts.kept`), and
among these a closing tag finds the one it found the first time.
-/
import ComponentMarkdown.Proofs.TaggedText.Callouts
import Mathlib.Data.List.Basic

namespace ComponentMarkdown

-- ============================================================ open tags

namespace OpenCallouts

/-- The open tags that stayed as they were. -/
def kept (opened : OpenCallouts) : OpenCallouts :=
  opened.filter fun e => !e.2

variable {kind k : CalloutKind} {converted : Bool} {opened : OpenCallouts}

theorem close_cons_of_eq (h : k = kind) :
    close kind ((k, converted) :: opened) = (some converted, opened) :=
  if_pos h

theorem close_cons_of_ne (h : k ≠ kind) :
    close kind ((k, converted) :: opened)
      = ((close kind opened).1, (k, converted) :: (close kind opened).2) :=
  if_neg h

/-- A closing tag whose opening tag stayed finds it among those that did. -/
theorem close_kept_of_stayed (h : (close kind opened).1 = some false) :
    close kind opened.kept = (some false, (close kind opened).2.kept) := by
  induction opened with
  | nil => cases h
  | cons e opened ih =>
    obtain ⟨k, converted⟩ := e
    by_cases hk : k = kind
    · rw [close_cons_of_eq hk] at h ⊢
      cases h
      exact close_cons_of_eq hk
    · rw [close_cons_of_ne hk] at h ⊢
      cases converted with
      | true => exact ih h
      | false =>
        show close kind ((k, false) :: kept opened) = _
        rw [close_cons_of_ne hk, ih h]
        rfl

/-- Any other takes none of them away. -/
theorem kept_close_of_not_stayed (h : (close kind opened).1 ≠ some false) :
    (close kind opened).2.kept = opened.kept := by
  induction opened with
  | nil => rfl
  | cons e opened ih =>
    obtain ⟨k, converted⟩ := e
    by_cases hk : k = kind
    · rw [close_cons_of_eq hk] at h ⊢
      cases converted with
      | true => rfl
      | false => exact absurd rfl h
    · rw [close_cons_of_ne hk] at h ⊢
      unfold kept at ih ⊢
      rw [List.filter_cons, List.filter_cons, ih h]

end OpenCallouts

namespace CalloutTag

open OpenCallouts

variable {tag : CalloutTag} {opened : OpenCallouts}

/-- A tag that stayed does so again among the tags that stayed. -/
theorem convert?_kept_of_none (h : (tag.convert? opened).1 = none) :
    tag.convert? opened.kept = (none, (tag.convert? opened).2.kept) := by
  cases hclosing : tag.closing with
  | true =>
    rw [convert?_of_closing hclosing] at h ⊢
    rw [convert?_of_closing hclosing]
    split
    · rename_i hplain
      rw [if_pos hplain] at h
      by_cases hstayed : (close tag.kind opened).1 = some false
      · rw [close_kept_of_stayed hstayed]
        rfl
      · rw [if_neg hstayed] at h
        cases h
    · rfl
  | false =>
    rw [convert?_of_opening hclosing] at h ⊢
    rw [convert?_of_opening hclosing]
    rw [Option.map_eq_none_iff] at h
    rw [h]
    split <;> rfl

/-- A tag that became something else takes none of those away that stayed,
and is none of them. -/
theorem kept_convert?_of_isSome (h : (tag.convert? opened).1.isSome) :
    (tag.convert? opened).2.kept = opened.kept := by
  cases hclosing : tag.closing with
  | true =>
    rw [convert?_of_closing hclosing] at h ⊢
    split
    · rename_i hplain
      rw [if_pos hplain] at h
      refine kept_close_of_not_stayed fun hstayed => ?_
      rw [if_pos hstayed] at h
      cases h
    · rfl
  | false =>
    rw [convert?_of_opening hclosing] at h ⊢
    rw [Option.isSome_map] at h
    rw [h]
    split <;> rfl

end CalloutTag

namespace TaggedText

open Markup

-- ============================================================= trimming

/-- Which attributes there are is no matter for trimming. -/
theorem trimmed_map (f : Attribute → Attribute) (parts : List Part) :
    trimmed (parts.map (Part.map f)) = (trimmed parts).map (Part.map f) := by
  induction parts with
  | nil => rfl
  | cons part parts ih =>
    cases part with
    | attr a => exact congrArg (Part.attr (f a) :: ·) ih
    | blank b =>
      rw [List.map_cons, Part.map, trimmed, trimmed, ih]
      cases trimmed parts with
      | nil => rfl
      | cons kept more => rfl

-- ============================================================== iframes

/-- A tag that is no self-closing iframe stays. -/
theorem Item.closed_of_not_iframe {tag : OpenTag Part}
    (h : tag.isClosedIframe = false) :
    Item.closed (.opening tag) = [.opening tag] :=
  if_neg (by rw [h]; exact Bool.false_ne_true)

theorem OpenTag.not_closedIframe {tag : OpenTag Part}
    (h : tag.slash = false) : tag.isClosedIframe = false := by
  unfold isClosedIframe
  rw [h, Bool.and_false]

/-- What an item becomes does not close itself any more. -/
theorem Item.flatMap_closed (item : Item Part) :
    item.closed.flatMap Item.closed = item.closed := by
  cases item with
  | text t => rfl
  | closing tag => rfl
  | opening tag =>
    cases h : tag.isClosedIframe with
    | false =>
      rw [closed_of_not_iframe h, List.flatMap_singleton,
        closed_of_not_iframe h]
    | true =>
      have hclosed : Item.closed (.opening tag)
          = [.opening ⟨tag.name, trimmed tag.parts, false⟩,
            .closing ⟨tag.name, []⟩] := if_pos h
      rw [hclosed, List.flatMap_cons, List.flatMap_singleton,
        closed_of_not_iframe (OpenTag.not_closedIframe rfl)]
      rfl

/-- Once closed, the iframes of a text stay as they are. -/
theorem closed_closed (page : TaggedText) :
    page.closed.closed = page.closed := by
  unfold closed
  rw [List.flatMap_assoc]
  exact congrArg (page.flatMap ·) (funext Item.flatMap_closed)

-- ====================================================== attribute names

/-- A name that has been lowered is none that is lowered. -/
theorem Attribute.lowered_lowered (a : Attribute) :
    a.lowered.lowered = a.lowered := by
  by_cases h : a.mixedCase?.isSome
  · have hlowered : a.lowered = { a with name := a.name.asciiLower } :=
      if_pos h
    have hall : ∀ name ∈ MixedCaseName.known, ∀ t ∈ [name, ':' :: name],
        t.asciiLower ∉ MixedCaseName.known
          ∧ t.asciiLower.tail ∉ MixedCaseName.known := by decide
    obtain ⟨name, hknown, hmem⟩ := exists_known_of_mixedCase h
    obtain ⟨hname, htail⟩ := hall name hknown _ hmem
    have hnone : a.lowered.mixedCase? = none := by
      rw [hlowered]
      unfold mixedCase?
      split
      · exact if_neg htail
      · exact if_neg hname
    refine if_neg ?_
    rw [hnone]
    exact Bool.false_ne_true
  · have hsame : a.lowered = a := if_neg h
    rw [hsame, hsame]

/-- And so does the attribute of a part. -/
theorem Part.lowered_lowered (part : Part) :
    (part.map Attribute.lowered).map Attribute.lowered
      = part.map Attribute.lowered := by
  cases part with
  | blank b => rfl
  | attr a => exact congrArg Part.attr a.lowered_lowered

/-- Once lowered, the names in a text stay as they are. -/
theorem lowered_lowered (page : TaggedText) :
    page.lowered.lowered = page.lowered := by
  unfold lowered mapAttributes Tagged.mapParts
  rw [List.map_map]
  refine congrArg (List.map · page) (funext fun item => ?_)
  cases item with
  | text t => rfl
  | closing tag => rfl
  | opening tag =>
    show Item.opening ⟨tag.name, (tag.parts.map _).map _, tag.slash⟩
      = .opening ⟨tag.name, tag.parts.map _, tag.slash⟩
    rw [List.map_map]
    exact congrArg
      (fun f => Item.opening ⟨tag.name, tag.parts.map f, tag.slash⟩)
      (funext Part.lowered_lowered)

/-- Names are lowered in the same way before and after iframes are closed. -/
theorem closed_lowered (page : TaggedText) :
    page.lowered.closed = page.closed.lowered := by
  unfold closed lowered mapAttributes Tagged.mapParts
  rw [List.flatMap_map, List.map_flatMap]
  refine congrArg (page.flatMap ·) (funext fun item => ?_)
  cases item with
  | text t => rfl
  | closing tag => rfl
  | opening tag =>
    have hiframe : (tag.mapParts (Part.map Attribute.lowered)).isClosedIframe
        = tag.isClosedIframe := rfl
    unfold Item.mapParts Item.closed
    dsimp only
    rw [hiframe]
    split
    · unfold OpenTag.mapParts
      dsimp only
      rw [trimmed_map]
      rfl
    · rfl

-- ============================================================= callouts

/-- The container of a callout, with its classes and its other parts. -/
theorem OpenTag.container?_eq_some {kind : CalloutKind}
    {tag new : OpenTag Part} (h : tag.container? kind = some new) :
    ∃ classes, tag.classes? = some classes
      ∧ new = ⟨containerName, .attr (containerClass kind classes)
        :: (trimmed tag.parts).filter fun p => !p.isClass, false⟩ := by
  obtain ⟨classes, hclasses, rfl⟩ := Option.map_eq_some_iff.1 h
  exact ⟨classes, hclasses, rfl⟩

/-- What becomes of the opening tag of a callout, and what is open behind
it. -/
theorem Item.contained_opening {kind : CalloutKind} {tag : OpenTag Part}
    (h : tag.name.kind? = some kind) (opened : OpenCallouts) :
    Item.contained (.opening tag) opened
      = (Item.container (.opening tag),
        if tag.slash then opened
        else (kind, (tag.container? kind).isSome) :: opened) := by
  have hread : Item.callout? (.opening tag)
      = some ⟨false, kind, tag.attributeText, tag.slash⟩ := by
    unfold callout?
    dsimp only
    rw [h]
    rfl
  unfold contained
  rw [hread]
  dsimp only
  rw [CalloutTag.convert?_of_opening rfl, ← tag.written_container,
    Option.isSome_map, Option.isSome_map]
  refine congrArg (·, _) ?_
  cases hcontainer : tag.container? kind with
  | some new => rfl
  | none =>
    unfold container
    dsimp only
    rw [h, Option.bind_some, hcontainer]
    rfl

/-- A callout becomes containers, or the end of one. -/
theorem Item.mem_container {item new : Item Part} {tag : CalloutTag}
    (hread : item.callout? = some tag) {opened : OpenCallouts}
    (h : (tag.convert? opened).1.isSome) (hnew : new ∈ item.container) :
    new = containerEnd ∨ ∃ old kind container, item = .opening old
      ∧ old.container? kind = some container ∧ new = .opening container := by
  cases item with
  | text t => cases hread
  | closing close => exact Or.inl (List.mem_singleton.1 hnew)
  | opening old =>
    obtain ⟨kind, hkind, rfl⟩ := Option.map_eq_some_iff.1 hread
    rw [CalloutTag.convert?_of_opening rfl, Option.isSome_map,
      ← old.written_container, Option.isSome_map] at h
    obtain ⟨container, hcontainer⟩ := Option.isSome_iff_exists.1 h
    unfold Item.container at hnew
    dsimp only at hnew
    rw [hkind, Option.bind_some, hcontainer] at hnew
    dsimp only at hnew
    split at hnew
    · rcases List.mem_cons.1 hnew with rfl | hnew
      · exact Or.inr ⟨old, kind, container, rfl, hcontainer, rfl⟩
      · exact Or.inl (List.mem_singleton.1 hnew)
    · rw [List.mem_singleton.1 hnew]
      exact Or.inr ⟨old, kind, container, rfl, hcontainer, rfl⟩

/-- None of these is a callout, or an iframe that closes itself. -/
theorem Item.settled_of_mem_container {item new : Item Part}
    {tag : CalloutTag} (hread : item.callout? = some tag)
    {opened : OpenCallouts} (h : (tag.convert? opened).1.isSome)
    (hnew : new ∈ item.container) :
    new.callout? = none ∧ new.closed = [new] := by
  have hname : containerName.kind? = none := by decide
  rcases mem_container hread h hnew with
    rfl | ⟨old, kind, container, -, hcontainer, rfl⟩
  · refine ⟨?_, rfl⟩
    unfold containerEnd callout?
    dsimp only
    rw [hname]
    rfl
  · obtain ⟨classes, -, rfl⟩ := OpenTag.container?_eq_some hcontainer
    refine ⟨?_, closed_of_not_iframe (OpenTag.not_closedIframe rfl)⟩
    unfold callout?
    dsimp only
    rw [hname]
    rfl

/-- What is no callout is passed by. -/
theorem contained_append_of_none {items : List (Item Part)}
    (h : ∀ item ∈ items, item.callout? = none) (opened : OpenCallouts)
    (page : TaggedText) :
    contained opened (items ++ page) = items ++ contained opened page := by
  induction items with
  | nil => rfl
  | cons item items ih =>
    obtain ⟨hitem, hitems⟩ := List.forall_mem_cons.1 h
    rw [List.cons_append, contained, Item.contained_of_none hitem, ih hitems]
    rfl

/-- What an item has become stays, and the tags that stayed are open behind
it. -/
theorem Item.contained_again (item : Item Part) (opened : OpenCallouts)
    (page : TaggedText) :
    TaggedText.contained opened.kept ((item.contained opened).1 ++ page)
      = (item.contained opened).1
        ++ TaggedText.contained (item.contained opened).2.kept page := by
  cases hread : item.callout? with
  | none =>
    rw [contained_of_none hread]
    refine contained_append_of_none ?_ _ _
    exact List.forall_mem_singleton.2 hread
  | some tag =>
    unfold contained
    rw [hread]
    dsimp only
    split
    · rename_i hconverted
      rw [CalloutTag.kept_convert?_of_isSome hconverted]
      exact contained_append_of_none
        (fun _ hnew => (settled_of_mem_container hread hconverted hnew).1) _ _
    · rename_i hstayed
      have hnone := Option.not_isSome_iff_eq_none.1 hstayed
      rw [List.singleton_append, TaggedText.contained, contained, hread]
      dsimp only
      rw [CalloutTag.convert?_kept_of_none hnone]
      rfl

/-- The containers of a text stay as they are, and so do the callouts that
stayed, if those before them are open. -/
theorem contained_kept (page : TaggedText) (opened : OpenCallouts) :
    contained opened.kept (contained opened page) = contained opened page := by
  induction page generalizing opened with
  | nil => rfl
  | cons item page ih => rw [contained, item.contained_again, ih]

/-- Once made containers, the callouts of a text stay as they are. -/
theorem contained_contained (page : TaggedText) :
    contained [] (contained [] page) = contained [] page :=
  contained_kept page []

-- ============================================ callouts and other steps

/-- An iframe is no callout. -/
theorem kind?_of_isClosedIframe {tag : OpenTag Part}
    (h : tag.isClosedIframe = true) : tag.name.kind? = none := by
  have hname : tag.name.text = "iframe".toList :=
    eq_of_beq (Bool.and_eq_true_iff.1 h).1
  have hiframe : CalloutKind.named? "iframe".toList = none := by decide
  unfold TagName.kind?
  rw [hname, hiframe]

/-- What becomes of an iframe is no callout. -/
theorem Item.callout?_of_mem_closed {item new : Item Part}
    (hread : item.callout? = none) (hnew : new ∈ item.closed) :
    new.callout? = none := by
  cases item with
  | text t =>
    rw [List.mem_singleton.1 hnew]
    exact hread
  | closing tag =>
    rw [List.mem_singleton.1 hnew]
    exact hread
  | opening tag =>
    unfold closed at hnew
    dsimp only at hnew
    split at hnew
    · rename_i hiframe
      have hkind := kind?_of_isClosedIframe hiframe
      rcases List.mem_cons.1 hnew with rfl | hnew
      · exact Option.map_eq_none_iff.2 hkind
      · rw [List.mem_singleton.1 hnew]
        exact Option.map_eq_none_iff.2 hkind
    · rw [List.mem_singleton.1 hnew]
      exact hread

/-- A callout is no iframe. -/
theorem Item.closed_of_callout {item : Item Part} {tag : CalloutTag}
    (hread : item.callout? = some tag) : item.closed = [item] := by
  cases item with
  | text t => rfl
  | closing tag => rfl
  | opening tag =>
    refine if_neg fun hiframe => ?_
    obtain ⟨kind, hkind, -⟩ := Option.map_eq_some_iff.1 hread
    rw [kind?_of_isClosedIframe hiframe] at hkind
    cases hkind

/-- What becomes of an item with its iframe closed has its iframes closed. -/
theorem Item.contained_closed (item : Item Part) (opened : OpenCallouts)
    (page : TaggedText) :
    TaggedText.contained opened (item.closed ++ page)
      = (item.contained opened).1.flatMap Item.closed
        ++ TaggedText.contained (item.contained opened).2 page := by
  cases hread : item.callout? with
  | none =>
    rw [contained_of_none hread, List.flatMap_singleton]
    exact contained_append_of_none
      (fun _ => callout?_of_mem_closed hread) _ _
  | some tag =>
    have hitem := closed_of_callout hread
    have hnew : (item.contained opened).1.flatMap Item.closed
        = (item.contained opened).1 := by
      unfold contained
      rw [hread]
      dsimp only
      split
      · rename_i hconverted
        refine (List.flatMap_congr fun new hnew =>
          (settled_of_mem_container hread hconverted hnew).2).trans ?_
        exact List.flatMap_singleton' _
      · rw [List.flatMap_singleton]
        exact hitem
    rw [hitem, hnew]
    rfl

/-- Callouts become the same before and after iframes are closed, -/
theorem closed_contained (page : TaggedText) (opened : OpenCallouts) :
    contained opened page.closed = closed (contained opened page) := by
  induction page generalizing opened with
  | nil => rfl
  | cons item page ih =>
    have hclosed : closed (item :: page) = item.closed ++ closed page :=
      List.flatMap_cons
    rw [hclosed, item.contained_closed, ih, contained]
    exact List.flatMap_append.symm

/-- The class of a container has no name that is lowered. -/
theorem lowered_containerClass (kind : CalloutKind) (classes : Classes) :
    (containerClass kind classes).lowered = containerClass kind classes := by
  have hcolon : "class".toList.head? ≠ some ':' := by decide
  have hclass : "class".toList ∉ MixedCaseName.known := by decide
  have hnone : (containerClass kind classes).mixedCase? = none := by
    unfold Attribute.mixedCase?
    exact (if_neg hcolon).trans (if_neg hclass)
  refine if_neg ?_
  rw [hnone]
  exact Bool.false_ne_true

/-- A tag with lowered names becomes a container with lowered names. -/
theorem OpenTag.container?_lowered (kind : CalloutKind) (tag : OpenTag Part) :
    (tag.mapParts (Part.map Attribute.lowered)).container? kind
      = (tag.container? kind).map
        (OpenTag.mapParts (Part.map Attribute.lowered)) := by
  have hpart : ((fun p : Part => !p.isClass) ∘ Part.map Attribute.lowered)
      = fun p => !p.isClass := by
    refine funext fun part => ?_
    cases part with
    | blank b => rfl
    | attr a => exact congrArg Bool.not a.isClass_lowered
  have hothers : (trimmed (tag.parts.map (Part.map Attribute.lowered))).filter
        (fun p => !p.isClass)
      = ((trimmed tag.parts).filter fun p => !p.isClass).map
        (Part.map Attribute.lowered) := by
    rw [trimmed_map, List.filter_map, hpart]
  unfold container?
  rw [classes?_lowered, Option.map_map]
  refine congrArg (Option.map · tag.classes?) (funext fun classes => ?_)
  have hclass := lowered_containerClass kind classes
  show OpenTag.mk _ (_ :: List.filter _ (trimmed (tag.parts.map _))) _
    = OpenTag.mk _ (Part.attr (containerClass kind classes).lowered
      :: List.map _ _) _
  rw [hothers, hclass]

/-- What becomes of an item with lowered names has lowered names. -/
theorem Item.contained_lowered (item : Item Part) (opened : OpenCallouts) :
    (item.mapParts (Part.map Attribute.lowered)).contained opened
      = ((item.contained opened).1.map
          (Item.mapParts (Part.map Attribute.lowered)),
        (item.contained opened).2) := by
  cases item with
  | text t => rfl
  | closing tag =>
    show Item.contained (.closing tag) opened = _
    unfold contained
    cases callout? (.closing tag) with
    | none => rfl
    | some tag =>
      dsimp only
      split <;> rfl
  | opening tag =>
    cases hkind : tag.name.kind? with
    | none =>
      have hread : callout? (.opening tag) = none :=
        Option.map_eq_none_iff.2 hkind
      rw [contained_of_none hread]
      refine contained_of_none ?_ _
      exact Option.map_eq_none_iff.2 hkind
    | some kind =>
      have hcontainer := tag.container?_lowered kind
      have hlowered : (tag.mapParts (Part.map Attribute.lowered)).name.kind?
          = some kind := hkind
      rw [contained_opening hkind]
      refine (contained_opening hlowered opened).trans ?_
      rw [hcontainer, Option.isSome_map]
      refine congrArg (·, _) ?_
      unfold container
      dsimp only
      rw [hlowered, hkind, Option.bind_some, Option.bind_some, hcontainer]
      cases tag.container? kind with
      | none => rfl
      | some new =>
        show (if tag.slash then _ else _)
          = List.map _ (if tag.slash then _ else _)
        cases tag.slash <;> rfl

/-- and before and after names are lowered. -/
theorem lowered_contained (page : TaggedText) (opened : OpenCallouts) :
    contained opened page.lowered = lowered (contained opened page) := by
  induction page generalizing opened with
  | nil => rfl
  | cons item page ih =>
    have hlowered : lowered (item :: page)
        = item.mapParts (Part.map Attribute.lowered) :: lowered page := rfl
    rw [hlowered, contained, item.contained_lowered, ih, contained]
    exact List.map_append.symm

-- =============================================================== values

/-- Classes that can be merged are those of a value. -/
theorem OpenTag.exists_of_classes? {tag : OpenTag Part} {classes : Classes}
    (h : tag.classes? = some classes) :
    classes.val = [] ∨ ∃ v ∈ tag.values, v.text = classes.val := by
  unfold classes? at h
  split at h
  · cases h
    exact Or.inl rfl
  · rename_i a hfilter
    have hmem : a ∈ tag.attributes.filter Attribute.isClass := by
      rw [hfilter]
      exact List.mem_cons_self
    have ha := (List.mem_filter.1 hmem).1
    unfold Attribute.classes? at h
    split at h
    · split at h
      · cases h
        exact Or.inl rfl
      · rename_i assigned hassigned
        split at h
        · cases h
        · cases h
          refine Or.inr ⟨assigned.value, List.mem_filterMap.2 ⟨a, ha, ?_⟩, rfl⟩
          unfold Attribute.value?
          rw [hassigned]
          rfl
    · cases h
  · cases h

/-- Where a value of the text with containers comes from. -/
theorem Item.mem_values_contained {item : Item Part} {opened : OpenCallouts}
    {v : QuotedValue}
    (h : v ∈ (item.contained opened).1.flatMap Item.values) :
    v ∈ item.values ∨ ∃ kind classes,
      (containerClass kind classes).value? = some v
        ∧ (classes.val = [] ∨ ∃ w ∈ item.values, w.text = classes.val) := by
  cases hread : item.callout? with
  | none =>
    rw [contained_of_none hread, List.flatMap_singleton] at h
    exact Or.inl h
  | some tag =>
    unfold contained at h
    rw [hread] at h
    dsimp only at h
    split at h
    · rename_i hconverted
      obtain ⟨new, hnew, hv⟩ := List.mem_flatMap.1 h
      rcases mem_container hread hconverted hnew with
        rfl | ⟨old, kind, container, rfl, hcontainer, rfl⟩
      · cases hv
      · obtain ⟨classes, hclasses, rfl⟩ := OpenTag.container?_eq_some hcontainer
        obtain ⟨a, ha, hvalue⟩ := List.mem_filterMap.1 hv
        have hothers : ((trimmed old.parts).filter fun p =>
              !p.isClass).filterMap Part.attribute?
            = old.attributes.filter fun a => !a.isClass := by
          rw [attributes_filter, attributes_trimmed]
          rfl
        rcases List.mem_cons.1 ha with rfl | ha
        · exact Or.inr ⟨kind, classes, hvalue,
            OpenTag.exists_of_classes? hclasses⟩
        · refine Or.inl (List.mem_filterMap.2 ⟨a, ?_, hvalue⟩)
          have ha : a ∈ old.attributes.filter fun a => !a.isClass :=
            hothers ▸ ha
          exact (List.mem_filter.1 ha).1
    · rw [List.flatMap_singleton] at h
      exact Or.inl h

/-- A value of the text with containers is one of the text, or that of a
container's class, which holds classes of the text. -/
theorem mem_values_contained {page : TaggedText} {opened : OpenCallouts}
    {v : QuotedValue} (h : v ∈ (contained opened page).values) :
    v ∈ page.values ∨ ∃ kind classes,
      (containerClass kind classes).value? = some v
        ∧ (classes.val = [] ∨ ∃ w ∈ page.values, w.text = classes.val) := by
  induction page generalizing opened with
  | nil => cases h
  | cons item page ih =>
    unfold values at h ih ⊢
    rw [contained, List.flatMap_append] at h
    rw [List.flatMap_cons]
    rcases List.mem_append.1 h with h | h
    · refine (Item.mem_values_contained h).imp (List.mem_append_left _) ?_
      rintro ⟨kind, classes, hv, hclasses⟩
      refine ⟨kind, classes, hv, hclasses.imp_right ?_⟩
      exact fun ⟨w, hw, htext⟩ => ⟨w, List.mem_append_left _ hw, htext⟩
    · refine (ih h).imp (List.mem_append_right _) ?_
      rintro ⟨kind, classes, hv, hclasses⟩
      refine ⟨kind, classes, hv, hclasses.imp_right ?_⟩
      exact fun ⟨w, hw, htext⟩ => ⟨w, List.mem_append_right _ hw, htext⟩

end TaggedText

end ComponentMarkdown
