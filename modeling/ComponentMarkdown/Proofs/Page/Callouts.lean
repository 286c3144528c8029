/-
Callouts of a page. Its containers are those of tagged text, written out
(`container?_attributeText`), and of each kind the open tags of the rule are
the stack of the translation (`contained_eq`). So what the page becomes part
by part is what the rule makes of it (`text_apply_callouts_written`).
-/
import ComponentMarkdown.Proofs.Page.Tagged
import ComponentMarkdown.Proofs.TaggedText.Callouts

namespace ComponentMarkdown.Page

open Markup OpenCallouts

-- ============================================================ containers

/-- What is a class attribute here is one there. -/
theorem Attribute.isClass_tagged (a : Attribute) :
    a.tagged.isClass = a.isClass := by
  have hname : ':' ∉ a.name.text := fun hmem =>
    absurd (a.name.isNameChar ':' hmem) (by decide)
  have hbound : ∀ p ∈ ClassUse.spellings, p.1.head? = some ':' →
      p.1 = ':' :: "class".toList := by decide
  have hplain : ∀ p ∈ ClassUse.spellings, ':' ∉ p.1 →
      p.1 = "class".toList := by decide
  unfold TaggedText.Attribute.isClass isClass tagged AttributeName.tagged
  rw [Bool.eq_iff_iff, List.any_eq_true, beq_iff_eq]
  dsimp only
  cases a.bound with
  | true =>
    constructor
    · rintro ⟨p, hp, heq⟩
      have hp' : p.1 = ':' :: a.name.text := eq_of_beq heq
      have hspelling := hbound p hp (by rw [hp']; rfl)
      exact (List.cons.inj (hp'.symm.trans hspelling)).2
    · intro h
      rw [h]
      exact ⟨(":class".toList, true), by decide, by decide⟩
  | false =>
    constructor
    · rintro ⟨p, hp, heq⟩
      have hp' : p.1 = a.name.text := eq_of_beq heq
      exact hp'.symm.trans (hplain p hp (by rw [hp']; exact hname))
    · intro h
      rw [h]
      exact ⟨("class".toList, false), by decide, by decide⟩

/-- Classes that can be merged here can be there. -/
theorem Attribute.classes?_tagged {a : Attribute} (h : a.isClass = true) :
    a.tagged.classes?.map Subtype.val = a.classes? := by
  have hname : a.tagged.name.text
      = (if a.bound then [':'] else []) ++ "class".toList := by
    show (if a.bound then [':'] else []) ++ a.name.text = _
    rw [show a.name.text = "class".toList from beq_iff_eq.1 h]
  have hassigned : a.tagged.assigned
      = a.value.map fun v => ⟨[], [], v.tagged⟩ := rfl
  unfold TaggedText.Attribute.classes? classes?
  rw [hname, hassigned]
  cases a.bound with
  | true => rfl
  | false =>
    cases a.value with
    | none => rfl
    | some v =>
      show Option.map Subtype.val (if h : '"' ∈ v.text then none
        else some ⟨v.text, h⟩) = if '"' ∈ v.text then none else some v.text
      split <;> rfl

/-- The attributes of a tag are those of the tag of the page. -/
theorem OpenTag.attributes_tagged (tag : OpenTag Attribute) :
    tag.tagged.attributes = tag.attributes.map Attribute.tagged := by
  show List.filterMap _ (_ ++ _) = _
  rw [List.filterMap_append, List.filterMap_map, List.filterMap_map]
  have hnone : (TaggedText.Part.attribute? ∘ TaggedText.Part.blank)
      = fun _ => none := rfl
  have hsome : (TaggedText.Part.attribute?
        ∘ fun a : Attribute => TaggedText.Part.attr a.tagged)
      = fun a => some a.tagged := rfl
  rw [hnone, hsome]
  simp

/-- And so are its classes. -/
theorem OpenTag.classes?_tagged (tag : OpenTag Attribute) :
    tag.tagged.classes?.map Subtype.val = classes? tag.attributes := by
  have hfilter : (tag.attributes.map Attribute.tagged).filter
        TaggedText.Attribute.isClass
      = (tag.attributes.filter Attribute.isClass).map Attribute.tagged := by
    rw [List.filter_map]
    exact congrArg (fun q => (tag.attributes.filter q).map Attribute.tagged)
      (funext Attribute.isClass_tagged)
  unfold TaggedText.OpenTag.classes? classes?
  rw [tag.attributes_tagged, hfilter]
  cases hclass : tag.attributes.filter Attribute.isClass with
  | nil => rfl
  | cons a more =>
    cases more with
    | cons b more => rfl
    | nil =>
      have hmem : a ∈ tag.attributes.filter Attribute.isClass := by
        rw [hclass]
        exact List.mem_cons_self
      exact Attribute.classes?_tagged (List.mem_filter.1 hmem).2

/-- The container of a tag is what the translation makes of it. -/
theorem container?_attributeText (kind : CalloutKind)
    (tag : OpenTag Attribute) :
    CalloutTag.container? ⟨false, kind, tag.tagged.attributeText, tag.slash⟩
      = tag.container? kind := by
  have hothers : ((TaggedText.trimmed tag.tagged.parts).filter
        fun p => !p.isClass).flatMap TaggedText.Part.written
      = (tag.attributes.filter fun a => !a.isClass).flatMap
        Attribute.written := by
    have hclass : ((fun p : TaggedText.Part => !p.isClass)
          ∘ fun a : Attribute => TaggedText.Part.attr a.tagged)
        = fun a => !a.isClass :=
      funext fun a => congrArg Bool.not a.isClass_tagged
    have hparts : TaggedText.trimmed tag.tagged.parts
        = tag.attributes.map fun a => .attr a.tagged :=
      trimmed_tagged tag.attributes tag.tail
    rw [hparts, List.filter_map, hclass, flatMap_written_tagged]
  refine (tag.tagged.container?_attributeText kind).trans ?_
  unfold OpenTag.container?
  rw [← tag.classes?_tagged, Option.map_map, hothers]
  rfl

-- ========================================================= open callouts

/-- The stacks of what is open. -/
def stacksOf (opened : OpenCallouts) : Stacks :=
  fun kind => ofKind kind opened

/-- A tag that closes takes one off the stack of its kind. -/
theorem stacksOf_closes {tag : CalloutTag} {kind : CalloutKind}
    (h : ∀ k, tag.closes k = true ↔ kind = k) (opened : OpenCallouts) :
    stacksOf (tag.convert? opened).2
      = Function.update (stacksOf opened) kind
        (stacksOf opened kind).tail := by
  funext k
  have hopens : ¬ tag.opens k = true := by
    rw [CalloutTag.opens_of_closes ((h kind).2 rfl) k]
    decide
  unfold stacksOf
  rw [CalloutTag.ofKind_next, if_neg hopens, Function.update_apply]
  simp only [h]
  by_cases hk : kind = k
  · rw [if_pos hk, if_pos hk.symm, hk]
  · rw [if_neg hk, if_neg (Ne.symm hk)]

/-- One that opens puts one on it. -/
theorem stacksOf_opens {tag : CalloutTag} {kind : CalloutKind}
    (h : ∀ k, tag.opens k = true ↔ kind = k) (opened : OpenCallouts) :
    stacksOf (tag.convert? opened).2
      = Function.update (stacksOf opened) kind
        (tag.container?.isSome :: stacksOf opened kind) := by
  funext k
  have hcloses : ¬ tag.closes k = true :=
    CalloutTag.not_closes_of_opens ((h kind).2 rfl)
  unfold stacksOf
  rw [CalloutTag.ofKind_next, if_neg hcloses, Function.update_apply]
  simp only [h]
  by_cases hk : kind = k
  · rw [if_pos hk, if_pos hk.symm, hk]
  · rw [if_neg hk, if_neg (Ne.symm hk)]

/-- What the rule makes of a closing tag, and what is open behind it, is what
the translation makes of it. -/
theorem contained_closing (name : TagName) (opened : OpenCallouts) :
    (Item.closing name).contained (stacksOf opened)
      = (Tagged.written
          ((Item.closing name).tagged.contained opened).1,
        stacksOf ((Item.closing name).tagged.contained opened).2) := by
  have hread : (Item.closing name).tagged.callout?
      = name.kind?.map fun kind => ⟨true, kind, [], false⟩ := rfl
  unfold Item.contained
  dsimp only
  cases hkind : name.kind? with
  | none =>
    rw [hkind] at hread
    rw [TaggedText.Item.contained_of_none hread]
    exact Prod.ext (List.append_nil _).symm rfl
  | some kind =>
    rw [hkind, Option.map_some] at hread
    obtain ⟨hwritten, hopened⟩ :=
      TaggedText.Item.contained_of_some hread opened
    have hcloses (k : CalloutKind) :
        (CalloutTag.mk true kind [] false).closes k = true ↔ kind = k := by
      rw [CalloutTag.closes_iff]
      exact ⟨fun h => h.2.2, fun h => ⟨rfl, rfl, h⟩⟩
    rw [hwritten, hopened, stacksOf_closes hcloses,
      CalloutTag.convert?_of_closes ((hcloses kind).2 rfl)]
    refine Prod.ext ?_ rfl
    show (if (stacksOf opened kind).head? = some false then _ else _) = _
    unfold stacksOf
    split <;> rfl

/-- So it is with an opening tag. -/
theorem contained_opening (tag : OpenTag Attribute) (opened : OpenCallouts) :
    (Item.opening tag).contained (stacksOf opened)
      = (Tagged.written ((Item.opening tag).tagged.contained opened).1,
        stacksOf ((Item.opening tag).tagged.contained opened).2) := by
  have hread : (Item.opening tag).tagged.callout?
      = tag.name.kind?.map fun kind =>
        ⟨false, kind, tag.tagged.attributeText, tag.slash⟩ := rfl
  have hitem : (Item.opening tag).tagged.written
      = tag.written Attribute.written := tag.written_tagged
  unfold Item.contained
  dsimp only
  cases hkind : tag.name.kind? with
  | none =>
    rw [hkind] at hread
    rw [TaggedText.Item.contained_of_none hread, ← hitem]
    exact Prod.ext (List.append_nil _).symm rfl
  | some kind =>
    rw [hkind, Option.map_some] at hread
    obtain ⟨hwritten, hopened⟩ :=
      TaggedText.Item.contained_of_some hread opened
    have hcontainer := container?_attributeText kind tag
    rw [hwritten, hopened, hitem]
    dsimp only
    cases hslash : tag.slash with
    | true =>
      rw [hslash] at hcontainer
      rw [← hcontainer]
      rfl
    | false =>
      rw [hslash] at hcontainer
      have hopens (k : CalloutKind) :
          (CalloutTag.mk false kind tag.tagged.attributeText false).opens k
              = true
            ↔ kind = k := by
        rw [CalloutTag.opens_iff]
        exact ⟨fun h => h.2.2, fun h => ⟨rfl, rfl, h⟩⟩
      rw [stacksOf_opens hopens,
        CalloutTag.convert?_of_opens ((hopens kind).2 rfl), hcontainer]
      rfl

/-- What becomes of an item of the page becomes of it as tagged text, with the
same callouts open. -/
theorem contained_eq (item : Item Attribute) (opened : OpenCallouts) :
    item.contained (stacksOf opened)
      = (Tagged.written (item.tagged.contained opened).1,
        stacksOf (item.tagged.contained opened).2) := by
  cases item with
  | text t => exact Prod.ext (List.append_nil _).symm rfl
  | closing name => exact contained_closing name opened
  | opening tag => exact contained_opening tag opened

-- ======================================================= the whole page

/-- What the translation makes of a page is what becomes of it as tagged text.
-/
theorem written_contained_tagged (page : Page Attribute)
    (opened : OpenCallouts) :
    (TaggedText.contained opened page.tagged).written
      = page.contained (stacksOf opened) := by
  induction page generalizing opened with
  | nil => rfl
  | cons item page ih =>
    rw [contained, contained_eq, ← ih]
    exact List.flatMap_append

/-- The rule for callouts makes containers of those of a page. -/
theorem text_apply_callouts_written (page : Page Attribute) :
    (Rule.callouts.apply (page.written Attribute.written)).text
      = page.contained fun _ => [] := by
  have hcode : '\x60' ∉ page.tagged.written := by
    rw [written_tagged]
    exact fun hmem =>
      (page.plain_written Attribute.plain_written _ hmem).1 rfl
  rw [← written_tagged, TaggedText.text_apply_callouts_tagged hcode
    fun tag htag _ => unreadBy_of_tagged CalloutTag.seeksTags_scanner htag]
  exact written_contained_tagged page []

end ComponentMarkdown.Page
