/-
The classes of rewritten callouts, as HTML reads them. A tag stays exactly
if its class cannot be merged. Any other becomes a container with the merged
classes, and HTML reads behind them what it reads in the attributes that are
kept. So the container has one class attribute and no bound one exactly if
HTML finds none among those (`classes_apply_callouts`).

It finds one that the rule does not. The rule takes a name that goes on with
an equals sign for another name, unless a value in quotes or braces follows,
so a class without quotes is kept beside the class of the container
(`classes_apply_callouts_unquoted`). And it tells capitals from small
letters, which HTML does not. For attributes in the syntax of HTML, that is
all.
-/
import ComponentMarkdown.Proofs.Html.ClassUses
import ComponentMarkdown.Proofs.Html.Containers
import ComponentMarkdown.Proofs.Rule.CalloutPartners

namespace ComponentMarkdown

-- ========================================================= class attributes

namespace Html

/-- Whether this is a class attribute, bound ones included. -/
def Attribute.isClass (a : Attribute) : Bool :=
  ClassUse.spellings.any fun p => p.1 == a.name

/-- Whether a tag has exactly one class attribute and no bound one. -/
def StartTag.HasOneClass (tag : StartTag) : Prop :=
  (tag.attributes.filter Attribute.isClass).map Attribute.name
    = ["class".toList]

instance (tag : StartTag) : Decidable tag.HasOneClass :=
  inferInstanceAs (Decidable (_ = _))

/-- A container with further attributes. -/
def container (k : CalloutKind) (classes : Text) (more : List Attribute) :
    StartTag :=
  ⟨"div".toList, ⟨"class".toList, containerClasses k classes⟩ :: more⟩

/-- A container has one class exactly if the other attributes have none. -/
theorem hasOneClass_container_iff (k : CalloutKind) (classes : Text)
    (more : List Attribute) :
    (container k classes more).HasOneClass
      ↔ ∀ a ∈ more, a.isClass = false := by
  have hfirst : Attribute.isClass
      ⟨"class".toList, containerClasses k classes⟩ = true := rfl
  unfold StartTag.HasOneClass container
  rw [List.filter_cons_of_pos hfirst, List.map_cons, List.cons.injEq,
    List.map_eq_nil_iff, List.filter_eq_nil_iff]
  simp

theorem hasOneClass_othersOf_iff (k : CalloutKind) (classes : Text)
    (parts : List Part) :
    (container k classes
        ((othersOf parts).filterMap Part.attribute?)).HasOneClass
      ↔ ∀ p ∈ parts, ∀ a ∈ p.attribute?, a.isClass = true →
        p.classUse?.isSome = true := by
  rw [hasOneClass_container_iff]
  unfold othersOf
  constructor
  · intro h p hp a ha hclass
    rw [← Bool.not_eq_false, Option.isSome_eq_false_iff]
    intro hnone
    have hmem := h a (List.mem_filterMap.2
      ⟨p, List.mem_filter.2 ⟨hp, hnone⟩, ha⟩)
    rw [hclass] at hmem
    cases hmem
  · intro h a ha
    obtain ⟨p, hp, hpa⟩ := List.mem_filterMap.1 ha
    obtain ⟨hp, hnone⟩ := List.mem_filter.1 hp
    rw [← Bool.not_eq_true]
    intro hclass
    rw [Option.isNone_iff_eq_none] at hnone
    have hsome := h p hp a hpa hclass
    rw [hnone] at hsome
    cases hsome

end Html

-- ================================================================ tags

namespace CalloutTag

/-- The classes that are merged into those of a container, and the
attributes that are kept. -/
def merged? (tag : CalloutTag) : Option (Text × Text) :=
  match ClassAttribute.ofAttributes tag.attributes.trimEnd with
  | .absent => some ([], tag.attributes.trimEnd)
  | .static classes others => some (classes, others)
  | .unmergeable => none

/-- A container is made of the merged attributes. -/
theorem container?_eq_merged (tag : CalloutTag) :
    tag.container? = tag.merged?.map fun p => tag.kind.container p.1 p.2 := by
  unfold container? merged?
  dsimp only
  cases ClassAttribute.ofAttributes tag.attributes.trimEnd <;> rfl

/-- Attributes are not merged exactly if the class cannot be. -/
theorem merged?_eq_none_iff (tag : CalloutTag) :
    tag.merged? = none ↔ tag.Unmergeable := by
  rw [← container?_eq_none_iff, container?_eq_merged, Option.map_eq_none_iff]

theorem not_mem_of_merged? {tag : CalloutTag} {classes others : Text}
    (h : tag.merged? = some (classes, others)) : '"' ∉ classes := by
  unfold merged? at h
  split at h
  · cases h
    exact List.not_mem_nil
  · rename_i hstatic
    cases h
    exact ClassAttribute.not_mem_of_static hstatic
  · cases h

/-- What attributes in the syntax of HTML are merged and kept. -/
theorem merged?_written {tag : CalloutTag} {parts : List Html.Part}
    (hwritten : tag.attributes.trimEnd = parts.flatMap Html.Part.written)
    (hparts : ∀ p ∈ parts, p.Legible) :
    tag.merged? = (Html.mergedClasses? parts).map fun classes =>
      (classes, (Html.othersOf parts).flatMap Html.Part.written) := by
  unfold merged? Html.mergedClasses?
  rw [hwritten, Html.ofAttributes_written hparts]
  cases huses : parts.filterMap Html.Part.classUse? with
  | nil =>
    have hothers : Html.othersOf parts = parts := by
      rw [List.filterMap_eq_nil_iff] at huses
      unfold Html.othersOf
      rw [List.filter_eq_self]
      exact fun p hp => by rw [huses p hp]; rfl
    rw [hothers]
    rfl
  | cons u more =>
    cases more with
    | cons v more => rfl
    | nil => cases hstatic : u.static? <;> simp [hstatic]

/-- What an opening tag becomes. -/
theorem convert?_eq_merged? {tag : CalloutTag} (h : tag.closing = false)
    (opened : OpenCallouts) :
    (tag.convert? opened).1 = tag.merged?.map fun p =>
      tag.kind.container p.1 p.2
        ++ if tag.selfClosing then containerEnd else [] := by
  rw [convert?_of_opening h, container?_eq_merged, Option.map_map]
  rfl

end CalloutTag

-- ======================================================= the whole rule

open CalloutSite

/-- The rule puts what each callout tag outside the code spans becomes in
the place of the tag, and touches nothing else. It keeps the opening tags
whose class cannot be merged. Every other one becomes a `div` with the class
of the container, which HTML reads, whatever follows, with the attributes it
reads in what is kept; so there is exactly one class attribute and no bound
one exactly if none is read there. Of attributes in the syntax of HTML all
are kept but those the rule reads a class in, so that is the case exactly if
it reads all class attributes. -/
theorem classes_apply_callouts (s : Text) :
    CalloutsAnswered s (ofText s) (Rule.callouts.apply s)
      ∧ (∀ k classes more, (Html.container k classes more).HasOneClass
        ↔ ∀ a ∈ more, a.isClass = false)
      ∧ ∀ site ∈ ofText s, site.tag.closing = false →
        (site.new? = none ↔ site.tag.Unmergeable)
        ∧ (∀ classes others, site.tag.merged? = some (classes, others) →
          ∃ new, site.new? = some new ∧ ∀ following,
            Html.startTag? (new ++ following)
              = (Html.State.between.attributes? (others ++ '>'
                  :: ((if site.tag.selfClosing then "</div>".toList else [])
                    ++ following))).map
                (Html.container site.tag.kind classes))
        ∧ ∀ parts, (∀ p ∈ parts, Html.Part.Legible p) →
          site.tag.attributes.trimEnd = parts.flatMap Html.Part.written →
            (Html.mergedClasses? parts = none → site.new? = none)
            ∧ ∀ classes, Html.mergedClasses? parts = some classes →
              ∃ new tag, site.new? = some new
                ∧ (∀ following, Html.startTag? (new ++ following) = some tag)
                ∧ tag = Html.container site.tag.kind classes
                  ((Html.othersOf parts).filterMap Html.Part.attribute?)
                ∧ (tag.HasOneClass
                  ↔ ∀ p ∈ parts, ∀ a ∈ p.attribute?, a.isClass = true →
                    p.classUse?.isSome = true) := by
  refine ⟨answered_apply_callouts s, Html.hasOneClass_container_iff,
    fun site hsite hopening => ?_⟩
  obtain ⟨before, after, hsites⟩ := List.append_of_mem hsite
  have hnew : site.new? = site.tag.merged?.map fun p =>
      site.tag.kind.container p.1 p.2
        ++ if site.tag.selfClosing then CalloutTag.containerEnd else [] := by
    rw [converted_ofText s before site after hsites,
      CalloutTag.convert?_eq_merged? hopening]
  have hread (classes others : Text)
      (hmerged : site.tag.merged? = some (classes, others)) :
      ∃ new, site.new? = some new ∧ ∀ following,
        Html.startTag? (new ++ following)
          = (Html.State.between.attributes? (others ++ '>'
              :: ((if site.tag.selfClosing then "</div>".toList else [])
                ++ following))).map
            (Html.container site.tag.kind classes) := by
    refine ⟨_, by rw [hnew, hmerged]; rfl, fun following => ?_⟩
    rw [List.append_assoc]
    exact Html.startTag?_container site.tag.kind
      (CalloutTag.not_mem_of_merged? hmerged) others _
  refine ⟨?_, hread, fun parts hlegible hwritten => ?_⟩
  · rw [hnew, Option.map_eq_none_iff, CalloutTag.merged?_eq_none_iff]
  · have hmerged := CalloutTag.merged?_written hwritten hlegible
    refine ⟨fun hnone => ?_, fun classes hclasses => ?_⟩
    · rw [hnew, hmerged, hnone]
      rfl
    · rw [hclasses] at hmerged
      obtain ⟨new, hsome, htag⟩ := hread _ _ hmerged
      refine ⟨new, _, hsome, fun following => ?_, rfl,
        Html.hasOneClass_othersOf_iff site.tag.kind classes parts⟩
      rw [htag, Html.attributes?_written_end]
      rfl

/-- The attributes `id=a class = 'b'`. -/
def idAndClass : List Html.Part :=
  [.unquoted ⟨⟨' ', by decide⟩,
      ⟨"id".toList, TaggedText.id_ne_nil, TaggedText.nameChar_id⟩, [], [],
      ⟨"a".toList, by decide, by decide⟩⟩,
    .tagged (.attr ⟨⟨' ', isBlank_space⟩,
      ⟨"class".toList, TaggedText.class_ne_nil, TaggedText.nameChar_class⟩,
      some ⟨[⟨' ', isBlank_space⟩], [⟨' ', isBlank_space⟩],
        ⟨'\'', "b".toList, Markup.isQuote_single, by decide⟩⟩⟩)
      ⟨by decide, fun _ hv => by cases hv; decide⟩]

/-- A class in quotes is merged, and a value without quotes is kept. -/
theorem classes_apply_callouts_quoted :
    ∃ site ∈ ofText "<Note id=a class = 'b'>x</Note>".toList,
      site.tag.closing = false ∧ ∃ new tag, site.new? = some new
        ∧ (∀ following, Html.startTag? (new ++ following) = some tag)
        ∧ tag = Html.container .note "b".toList [⟨"id".toList, "a".toList⟩]
        ∧ tag.HasOneClass := by
  have hfirst : ∃ site ∈ ofText "<Note id=a class = 'b'>x</Note>".toList,
      site.tag.closing = false ∧ site.tag.kind = .note
        ∧ site.tag.attributes.trimEnd
          = idAndClass.flatMap Html.Part.written := by
    decide +kernel
  obtain ⟨site, hsite, hopening, hkind, hwritten⟩ := hfirst
  have hlegible : ∀ p ∈ idAndClass, p.Legible :=
    List.forall_mem_cons.2 ⟨⟨fun _ => .inr rfl, .inl rfl⟩,
      List.forall_mem_singleton.2 trivial⟩
  obtain ⟨new, tag, hnew, hread, htag, -⟩ :=
    (((classes_apply_callouts _).2.2 site hsite hopening).2.2 idAndClass
      hlegible hwritten).2 "b".toList (by decide)
  rw [hkind] at htag
  refine ⟨site, hsite, hopening, new, tag, hnew, hread, htag, ?_⟩
  rw [htag]
  decide

/-- A bound class without quotes stays beside the class of the
container. -/
theorem classes_apply_callouts_unquoted :
    (Rule.callouts.apply "<Note :class=foo>x</Note>".toList).text
        = ("<div class=\"callout callout-note\" :class=foo>x"
          ++ "</div>").toList
      ∧ (∃ site ∈ ofText "<Note :class=foo>x</Note>".toList,
        site.tag.closing = false ∧ site.new?
          = some "<div class=\"callout callout-note\" :class=foo>".toList)
      ∧ ∃ tag, Html.startTag?
            "<div class=\"callout callout-note\" :class=foo>".toList
          = some tag
        ∧ tag.attributes = [⟨"class".toList, "callout callout-note".toList⟩,
          ⟨":class".toList, "foo".toList⟩]
        ∧ ¬ tag.HasOneClass := by
  have hread : Html.startTag?
        "<div class=\"callout callout-note\" :class=foo>".toList
      = some ⟨"div".toList, [⟨"class".toList, "callout callout-note".toList⟩,
        ⟨":class".toList, "foo".toList⟩]⟩ := by
    decide +kernel
  exact ⟨by decide +kernel, by decide +kernel, _, hread, rfl, by decide⟩

end ComponentMarkdown
