/-
Texts that settle at once. A text is calm if it is made of tags whose values
are quoted, or put in quotes before anything else is done, and hold no start
of a tag, and if it has neither code nor fences (`BracedText.Calm`). What a
rule makes of tagged text that is calm is calm again
(`TaggedText.Calm.rewrite`), and a rule that is run again does nothing,
whatever was run in between (`TaggedText.rewrite_foldl_rewrite`).
-/
import ComponentMarkdown.Proofs.BracedText.Conversion
import ComponentMarkdown.Proofs.TaggedText.Repeated
import ComponentMarkdown.Proofs.Transformer.QuotedValues

namespace ComponentMarkdown

open Markup

namespace TaggedText

-- ============================================================ tagless texts

/-- Whether a text holds no start of a tag that a rule looks for. -/
def Tagless (t : Text) : Prop := ∀ word ∈ tagStarts, ¬ word <:+: t

/-- A part of a tagless text is tagless. -/
theorem Tagless.of_isInfix {s t : Text} (h : Tagless t) (hst : s <:+: t) :
    Tagless s :=
  fun word hword hs => h word hword (hs.trans hst)

/-- A word is not found across text without its first character. -/
theorem isInfix_of_append {c : Char} {word before t : Text}
    (hc : c ∉ before) (h : c :: word <:+: before ++ t) : c :: word <:+: t := by
  induction before with
  | nil => exact h
  | cons d before ih =>
    rw [List.mem_cons, not_or] at hc
    rw [List.cons_append, List.infix_cons_iff, List.cons_prefix_cons] at h
    exact h.elim (fun hprefix => absurd hprefix.1 hc.1) (ih hc.2)

/-- The class of a container is as tagless as the classes in it. -/
theorem tagless_containerClass {kind : CalloutKind} {classes : Classes}
    {v : QuotedValue} (hv : (containerClass kind classes).value? = some v)
    (h : Tagless classes.val) : Tagless v.text := by
  intro word hword hinfix
  have hmarks : ∀ word ∈ tagStarts, word.head? = some '<' := by decide
  obtain ⟨rest, rfl⟩ := List.head?_eq_some_iff.1 (hmarks word hword)
  have hname : '<' ∉ "callout ".toList ++ kind.className := by
    cases kind <;> decide
  have hadded : '<' :: rest <:+: addedClasses classes.val := by
    cases hv
    exact isInfix_of_append hname hinfix
  unfold addedClasses at hadded
  split at hadded
  · cases List.eq_nil_of_infix_nil hadded
  · have hadded : '<' :: rest <:+: [' '] ++ classes.val.trim := hadded
    have hclasses := isInfix_of_append (by decide) hadded
    exact h _ hword (hclasses.trans (Text.isInfix_trim classes.val))

-- =============================================================== calm texts

/-- Whether a text has neither code nor fences, and no tags in its values. -/
structure Calm (page : TaggedText) : Prop where
  code : '\x60' ∉ page.written
  fence : '~' ∉ page.written
  values : ∀ v ∈ page.values, Tagless v.text

/-- The rules read nothing within the values of a calm text. -/
theorem Calm.inert {page : TaggedText} (h : page.Calm) : page.Inert := by
  intro tag htag
  refine OpenTag.inert_of_values fun v hv => h.values v ?_
  exact List.mem_flatMap.2 ⟨.opening tag, htag, hv⟩

/-- Containers bring no tag into a value. -/
theorem tagless_contained {page : TaggedText}
    (h : ∀ v ∈ page.values, Tagless v.text) :
    ∀ v ∈ (contained [] page).values, Tagless v.text := by
  intro v hv
  rcases mem_values_contained hv with hv | ⟨kind, classes, hvalue, hclasses⟩
  · exact h v hv
  · refine tagless_containerClass hvalue ?_
    rcases hclasses with hnil | ⟨w, hw, htext⟩
    · rw [hnil]
      have hempty : ∀ word ∈ tagStarts, ¬ word <:+: [] := by decide
      exact hempty
    · rw [← htext]
      exact h w hw

-- ============================================================== one rule

/-- What a rule makes of tagged text. -/
def rewrite (page : TaggedText) (rule : Rule) : TaggedText :=
  if rule.name = Rule.iframeClosing.name then page.closed
  else if rule.name = Rule.attributeCasing.name then page.lowered
  else if rule.name = Rule.callouts.name then contained [] page
  else page

section

variable (page : TaggedText)

theorem rewrite_braceAttributes : page.rewrite .braceAttributes = page := rfl

theorem rewrite_iframeClosing : page.rewrite .iframeClosing = page.closed :=
  rfl

theorem rewrite_attributeCasing :
    page.rewrite .attributeCasing = page.lowered := rfl

theorem rewrite_callouts : page.rewrite .callouts = contained [] page := rfl

end

variable {rule other : Rule} {rules : List Rule} {page : TaggedText}

/-- On a calm text, a rule does what becomes of tagged text. -/
theorem text_apply_eq_written_rewrite (hrule : rule ∈ Registry.rules)
    (h : page.Calm) :
    (rule.apply page.written).text = (page.rewrite rule).written := by
  rcases Registry.mem_rules_iff.1 hrule with rfl | rfl | rfl | rfl
  · exact text_apply_braceAttributes_tagged page
  · exact text_apply_iframeClosing_tagged fun tag htag =>
      (h.inert tag htag).iframe
  · exact text_apply_attributeCasing_tagged page
  · exact text_apply_callouts_tagged h.code fun tag htag =>
      (h.inert tag htag).callout

/-- What becomes of a calm text is calm. -/
theorem Calm.rewrite (hrule : rule ∈ Registry.rules) (h : page.Calm) :
    (page.rewrite rule).Calm := by
  have hwritten := text_apply_eq_written_rewrite hrule h
  have hlacks {c : Char} (hc : c ∉ inserted) (hmem : c ∉ page.written) :
      c ∉ (page.rewrite rule).written := by
    rw [← hwritten]
    exact Rule.lacks_apply hc hrule page.written hmem
  refine ⟨hlacks (by decide) h.code, hlacks (by decide) h.fence, ?_⟩
  rcases Registry.mem_rules_iff.1 hrule with rfl | rfl | rfl | rfl
  · exact h.values
  · rw [rewrite_iframeClosing, page.values_closed.1]
    exact h.values
  · rw [rewrite_attributeCasing, page.values_lowered.1]
    exact h.values
  · exact tagless_contained h.values

/-- A rule that is run twice does nothing the second time. -/
theorem rewrite_rewrite (hrule : rule ∈ Registry.rules) (page : TaggedText) :
    (page.rewrite rule).rewrite rule = page.rewrite rule := by
  rcases Registry.mem_rules_iff.1 hrule with rfl | rfl | rfl | rfl
  · rfl
  · exact page.closed_closed
  · exact page.lowered_lowered
  · exact page.contained_contained

/-- It is no matter which of two rules comes first. -/
theorem rewrite_comm (hrule : rule ∈ Registry.rules)
    (hother : other ∈ Registry.rules) (page : TaggedText) :
    (page.rewrite rule).rewrite other = (page.rewrite other).rewrite rule := by
  have hiframes := page.closed_lowered
  have hcontained := page.closed_contained []
  have hlowered := page.lowered_contained []
  rcases Registry.mem_rules_iff.1 hrule with rfl | rfl | rfl | rfl <;>
    rcases Registry.mem_rules_iff.1 hother with rfl | rfl | rfl | rfl <;>
    simp only [rewrite_braceAttributes, rewrite_iframeClosing,
      rewrite_attributeCasing, rewrite_callouts, hiframes, hcontained, hlowered]

-- ============================================================= all rules

/-- Rules that are run one after the other make of a calm text what they make
of it as tagged text. -/
theorem foldl_apply_eq_written (hrules : ∀ rule ∈ rules, rule ∈ Registry.rules)
    (h : page.Calm) :
    rules.foldl (fun t rule => (rule.apply t).text) page.written
        = (rules.foldl TaggedText.rewrite page).written
      ∧ (rules.foldl TaggedText.rewrite page).Calm := by
  induction rules generalizing page with
  | nil => exact ⟨rfl, h⟩
  | cons rule rules ih =>
    obtain ⟨hrule, hrules⟩ := List.forall_mem_cons.1 hrules
    rw [List.foldl_cons, List.foldl_cons, text_apply_eq_written_rewrite hrule h]
    exact ih hrules (h.rewrite hrule)

/-- It is no matter whether a rule is run before others or behind them. -/
theorem foldl_rewrite_comm (hrules : ∀ rule ∈ rules, rule ∈ Registry.rules)
    (hrule : rule ∈ Registry.rules) (page : TaggedText) :
    (rules.foldl TaggedText.rewrite page).rewrite rule
      = rules.foldl TaggedText.rewrite (page.rewrite rule) := by
  induction rules generalizing page with
  | nil => rfl
  | cons other rules ih =>
    obtain ⟨hother, hrules⟩ := List.forall_mem_cons.1 hrules
    rw [List.foldl_cons, List.foldl_cons, ih hrules, rewrite_comm hother hrule]

/-- What rules make of a text in whatever order and number, none of them
makes into anything else. -/
theorem rewrite_foldl_rewrite
    (hrules : ∀ rule ∈ rules, rule ∈ Registry.rules) (hrule : rule ∈ rules)
    (page : TaggedText) :
    (rules.foldl TaggedText.rewrite page).rewrite rule
      = rules.foldl TaggedText.rewrite page := by
  induction rules generalizing page with
  | nil => cases hrule
  | cons other rules ih =>
    obtain ⟨hother, hrest⟩ := List.forall_mem_cons.1 hrules
    rw [List.foldl_cons]
    rcases List.mem_cons.1 hrule with rfl | hrule
    · rw [foldl_rewrite_comm hrest hother, rewrite_rewrite hother]
    · exact ih hrest hrule _

/-- Where no rule makes a text into anything else, all of them leave it. -/
theorem foldl_apply_of_settled
    (hrules : ∀ rule ∈ rules, rule ∈ Registry.rules) (h : page.Calm)
    (hsettled : ∀ rule ∈ rules, page.rewrite rule = page) :
    rules.foldl (fun t rule => (rule.apply t).text) page.written
      = page.written := by
  rw [(foldl_apply_eq_written hrules h).1]
  refine congrArg Tagged.written ?_
  induction rules with
  | nil => rfl
  | cons rule rules ih =>
    rw [List.forall_mem_cons] at hrules hsettled
    rw [List.foldl_cons, hsettled.1]
    exact ih hrules.2 hsettled.2

end TaggedText

-- ======================================================= values in braces

namespace BracedText

open TaggedText (Attribute Item Tagless)

/-- What stands between the quotes or the braces of a part. -/
def Part.value? : Part → Option Text
  | .blank _ => none
  | .attr a => a.value?.map TaggedText.QuotedValue.text
  | .braced a _ => some a.value

/-- The parts of an item. -/
def partsOf : Item Part → List Part
  | .opening tag => tag.parts
  | _ => []

/-- The parts of all tags, in order. -/
def parts (page : BracedText) : List Part := page.flatMap partsOf

/-- Whether a part is an attribute with its value in braces. -/
def Part.isBraced : Part → Bool
  | .braced _ _ => true
  | _ => false

/-- Whether a text has neither code nor fences, no tags in its values, and
values in braces only if they are not blank and the first of the rules puts
them in quotes. -/
structure Calm (rules : List Rule) (page : BracedText) : Prop where
  code : '\x60' ∉ page.written
  fence : '~' ∉ page.written
  values : ∀ part ∈ page.parts, ∀ t ∈ part.value?, Tagless t
  braces : ∀ part ∈ page.parts, part.isBraced →
    part.isConverted ∧ rules.head? = some .braceAttributes

/-- A part with its value in quotes. -/
def Part.quoted : Part → TaggedText.Part
  | .blank b => .blank b
  | .attr a => .attr a
  | .braced a ha =>
    match ha.quoted? with
    | some new => .attr new
    | none => .blank ⟨a.lead, ha.lead⟩

/-- The text with its values in quotes. -/
def quoted (page : BracedText) : TaggedText := page.mapParts Part.quoted

/-- A part that is not blank braces is put in quotes as the rule does it. -/
theorem Part.written_quoted {part : Part}
    (h : part.isBraced → part.isConverted) :
    part.quoted.written = part.converted.written := by
  cases part with
  | blank b => rfl
  | attr a => rfl
  | braced a ha =>
    have hvisible : a.value.trim ≠ [] := by
      have hconverted : (!a.value.trim.isEmpty) = true := h rfl
      simpa using hconverted
    have hsome := mt ha.quoted?_eq_none_iff.1 hvisible
    obtain ⟨new, hnew⟩ := Option.ne_none_iff_exists'.1 hsome
    unfold quoted converted
    dsimp only
    rw [hnew]
    rfl

variable {rules : List Rule} {page : BracedText}

theorem mem_parts {tag : TaggedText.OpenTag Part} (htag : .opening tag ∈ page)
    {part : Part} (hpart : part ∈ tag.parts) : part ∈ page.parts :=
  List.mem_flatMap.2 ⟨.opening tag, htag, hpart⟩

/-- The rule for braces puts the values of a calm text in quotes. -/
theorem Calm.written_quoted (h : page.Calm rules) :
    page.quoted.written
      = (Rule.braceAttributes.apply page.written).text := by
  rw [page.text_apply_braceAttributes]
  exact Tagged.written_mapParts_congr fun tag htag part hpart =>
    part.written_quoted fun hbraced =>
      (h.braces part (mem_parts htag hpart) hbraced).1

/-- Put in quotes, a value is what it was, perhaps trimmed. -/
theorem isInfix_of_quoted? {a : BraceAttribute} {ha : a.WellFormed}
    {new : Attribute} (hnew : ha.quoted? = some new)
    {v : TaggedText.QuotedValue} (hv : new.value? = some v) :
    v.text <:+: a.value := by
  unfold BraceAttribute.WellFormed.quoted? at hnew
  split at hnew
  · cases hnew
  · split at hnew
    · cases hnew
      cases hv
      exact Text.isInfix_trim a.value
    · cases hnew
      cases hv
      exact List.infix_rfl

/-- A quoted value of the text holds what some value held before. -/
theorem exists_of_mem_values_quoted {v : TaggedText.QuotedValue}
    (h : v ∈ page.quoted.values) :
    ∃ part ∈ page.parts, ∃ t ∈ part.value?, v.text <:+: t := by
  obtain ⟨item, hitem, hv⟩ := List.mem_flatMap.1 h
  obtain ⟨source, hsource, rfl⟩ := List.mem_map.1 hitem
  cases source with
  | text t => cases hv
  | closing tag => cases hv
  | opening tag =>
    obtain ⟨a, ha, hvalue⟩ := List.mem_filterMap.1 hv
    obtain ⟨new, hnew, hattribute⟩ := List.mem_filterMap.1 ha
    obtain ⟨part, hpart, rfl⟩ := List.mem_map.1 hnew
    refine ⟨part, mem_parts hsource hpart, ?_⟩
    cases part with
    | blank b => cases hattribute
    | attr b =>
      cases hattribute
      exact ⟨v.text, Option.mem_map_of_mem _ hvalue, List.infix_rfl⟩
    | braced b hb =>
      unfold Part.quoted at hattribute
      dsimp only at hattribute
      split at hattribute
      · rename_i hquoted
        cases hattribute
        exact ⟨b.value, rfl, isInfix_of_quoted? hquoted hvalue⟩
      · cases hattribute

/-- With its values in quotes, a calm text is calm as tagged text. -/
theorem Calm.quoted (h : page.Calm rules) : page.quoted.Calm := by
  have hlacks {c : Char} (hc : c ∉ inserted) (hmem : c ∉ page.written) :
      c ∉ page.quoted.written := by
    rw [h.written_quoted]
    exact Rule.lacks_apply hc (by simp [Registry.rules]) page.written hmem
  refine ⟨hlacks (by decide) h.code, hlacks (by decide) h.fence, ?_⟩
  intro v hv
  obtain ⟨part, hpart, t, ht, hinfix⟩ := exists_of_mem_values_quoted hv
  exact (h.values part hpart t ht).of_isInfix hinfix

/-- Rules make the same of a calm text as of the one with its values in
quotes. -/
theorem Calm.foldl_apply (h : page.Calm rules) :
    rules.foldl (fun t rule => (rule.apply t).text) page.written
      = rules.foldl (fun t rule => (rule.apply t).text)
        page.quoted.written := by
  by_cases hbraced : ∃ part ∈ page.parts, part.isBraced
  · obtain ⟨part, hpart, hpart'⟩ := hbraced
    obtain ⟨rest, rfl⟩ :=
      List.head?_eq_some_iff.1 (h.braces part hpart hpart').2
    rw [List.foldl_cons, List.foldl_cons, ← h.written_quoted,
      TaggedText.text_apply_braceAttributes_tagged]
  · have hwritten : (page.mapParts id).written = page.quoted.written := by
      refine Tagged.written_mapParts_congr fun tag htag part hpart => ?_
      cases part with
      | blank b => rfl
      | attr a => rfl
      | braced a ha =>
        exact absurd ⟨_, mem_parts htag hpart, rfl⟩ hbraced
    rw [← hwritten, Tagged.mapParts_id]

end BracedText

-- ================================================================ pages

namespace Page

open TaggedText (Tagless)

/-- In plain text no tag starts. -/
theorem tagless_of_plain {t : Text} (h : ∀ c ∈ t, isPlain c = true) :
    Tagless t := by
  intro word hword hinfix
  have hmarks : ∀ word ∈ TaggedText.tagStarts, '<' ∈ word := by decide
  have hmem := hinfix.subset (hmarks word hword)
  exact (isPlain_iff.1 (h _ hmem)).1 rfl

/-- A value of a page is plain, and braces around it are put in quotes. -/
theorem SourceAttribute.calm_toPart (a : SourceAttribute) :
    (∀ t ∈ a.toPart.value?, Tagless t)
      ∧ (a.toPart.isBraced → a.toPart.isConverted) := by
  cases a with
  | plain a =>
    refine ⟨fun t ht => ?_, nofun⟩
    obtain ⟨v, hv, rfl⟩ := Option.map_eq_some_iff.1 ht
    unfold TaggedText.Attribute.value? Attribute.tagged at hv
    rw [Option.map_map] at hv
    obtain ⟨w, -, rfl⟩ := Option.map_eq_some_iff.1 hv
    exact tagless_of_plain w.plain
  | braced a =>
    refine ⟨fun t ht => ?_, fun _ => ?_⟩
    · cases ht
      exact tagless_of_plain a.plain
    · show (!a.value.trim.isEmpty) = true
      have hvisible := a.visible
      simpa using hvisible

/-- A part of a page is one of its attributes, or a blank. -/
theorem exists_of_mem_parts {page : Page SourceAttribute}
    {part : BracedText.Part} (h : part ∈ page.braced.parts) :
    (∃ a : SourceAttribute, part = a.toPart) ∨ ∃ b, part = .blank b := by
  obtain ⟨item, hitem, hpart⟩ := List.mem_flatMap.1 h
  obtain ⟨source, -, rfl⟩ := List.mem_map.1 hitem
  cases source with
  | text t => cases hpart
  | closing name => cases hpart
  | opening tag =>
    rcases List.mem_append.1 hpart with hpart | hpart
    · obtain ⟨a, -, rfl⟩ := List.mem_map.1 hpart
      exact Or.inl ⟨a, rfl⟩
    · obtain ⟨b, -, rfl⟩ := List.mem_map.1 hpart
      exact Or.inr ⟨b, rfl⟩

/-- A page is calm, if the rule for braces comes first. -/
theorem calm_braced (page : Page SourceAttribute) :
    page.braced.Calm Registry.rules := by
  have hmarks := page.plain_written SourceAttribute.plain_written
  rw [← page.written_braced] at hmarks
  refine ⟨fun h => (hmarks _ h).1 rfl, fun h => (hmarks _ h).2 rfl,
    fun part hpart t ht => ?_, fun part hpart hbraced => ?_⟩
  · rcases exists_of_mem_parts hpart with ⟨a, rfl⟩ | ⟨b, rfl⟩
    · exact a.calm_toPart.1 t ht
    · cases ht
  · rcases exists_of_mem_parts hpart with ⟨a, rfl⟩ | ⟨b, rfl⟩
    · exact ⟨a.calm_toPart.2 hbraced, rfl⟩
    · cases hbraced

end Page

end ComponentMarkdown
