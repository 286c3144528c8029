/-
Pages without values in braces, as tagged text. A page is written as the
tagged text with the same tags (`written_tagged`), so what the rules make of
tagged text they make of it. The steps of its translation are the steps of
the tagged text (`tagged_closed`, `tagged_lowered`), and there is no `<`
within a value, so no rule reads anything there (`unreadBy_of_tagged`).
-/
import ComponentMarkdown.Proofs.Page.Translation
import ComponentMarkdown.Proofs.TaggedText.Iframes
import ComponentMarkdown.Proofs.TaggedText.InsideTags

namespace ComponentMarkdown.Page

open Markup

-- ============================================================ embedding

/-- What belongs to a name here belongs to one there. -/
theorem isNameChar_tagged {c : Char} (hc : isNameChar c = true) :
    TaggedText.isNameChar c = true := by
  have hmarks : c ∉ ['<', '>', '=', '/', '{', '}'] :=
    not_mem_of_class (by decide) hc
  unfold TaggedText.isNameChar
  rw [isBlank_of_isNameChar hc, isQuote_of_isNameChar hc,
    List.contains_eq_mem, decide_eq_false hmarks]
  rfl

/-- The name as one of tagged text. -/
def TagName.tagged (n : TagName) : TaggedText.TagName where
  first := n.first
  rest := n.rest
  first_alpha := n.first_alpha
  rest_nameChar c hc :=
    TaggedText.nameClass_isTagNameChar.alphanum c (n.rest_alphanum c hc)

/-- The value as one of tagged text. -/
def QuotedValue.tagged (v : QuotedValue) : TaggedText.QuotedValue :=
  ⟨v.quote, v.text, v.quote_isQuote, v.unquoted⟩

/-- The name with the colon that may precede it. -/
def AttributeName.tagged (bound : Bool) (n : AttributeName) :
    TaggedText.AttributeName where
  text := (if bound then [':'] else []) ++ n.text
  ne_nil := List.append_ne_nil_of_right_ne_nil _ (List.cons_ne_nil _ _)
  nameChar := List.forall_mem_append.2 ⟨by cases bound <;> decide,
    fun c hc => isNameChar_tagged (n.isNameChar c hc)⟩

/-- The attribute as one of tagged text. -/
def Attribute.tagged (a : Attribute) : TaggedText.Attribute where
  lead := a.lead
  name := a.name.tagged a.bound
  assigned := a.value.map fun v => ⟨[], [], v.tagged⟩

/-- The tag as one of tagged text. -/
def OpenTag.tagged (tag : OpenTag Attribute) :
    TaggedText.OpenTag TaggedText.Part where
  name := tag.name.tagged
  parts := tag.attributes.map (fun a => .attr a.tagged)
    ++ tag.tail.map .blank
  slash := tag.slash

/-- The item as one of tagged text. -/
def Item.tagged : Item Attribute → TaggedText.Item TaggedText.Part
  | .text t => .text ⟨t.text, t.not_mem_opening⟩
  | .closing name => .closing ⟨name.tagged, []⟩
  | .opening tag => .opening tag.tagged

/-- The page as tagged text. -/
def tagged (page : Page Attribute) : TaggedText := List.map Item.tagged page

-- ============================================================== writing

/-- The attribute is written as that of the page. -/
theorem Attribute.written_tagged (a : Attribute) :
    a.tagged.written = a.written := by
  unfold TaggedText.Attribute.written TaggedText.Attribute.ending written
    assigned tagged
  cases a.value <;> rfl

theorem flatMap_written_tagged (attributes : List Attribute) :
    (attributes.map fun a => TaggedText.Part.attr a.tagged).flatMap
        TaggedText.Part.written
      = attributes.flatMap Attribute.written := by
  rw [List.flatMap_map]
  exact congrArg (attributes.flatMap ·) (funext Attribute.written_tagged)

/-- The tag is written as that of the page. -/
theorem OpenTag.written_tagged (tag : OpenTag Attribute) :
    tag.tagged.written = tag.written Attribute.written := by
  have hparts : tag.tagged.parts.flatMap TaggedText.Part.written
      = tag.attributes.flatMap Attribute.written
        ++ tag.tail.map Subtype.val := by
    show List.flatMap _ (_ ++ _) = _
    rw [List.flatMap_append, flatMap_written_tagged,
      TaggedText.flatMap_blanks fun _ => rfl]
  show '<' :: (tag.name.text ++ (tag.tagged.parts.flatMap
    TaggedText.Part.written ++ tag.tagged.ending)) = _
  unfold written body ending
  rw [hparts, List.append_assoc]
  rfl

theorem Item.written_tagged (item : Item Attribute) :
    item.tagged.written = item.written Attribute.written := by
  cases item with
  | text t => rfl
  | closing name => rfl
  | opening tag => exact tag.written_tagged

/-- The tagged text is written as the page is. -/
theorem written_tagged (page : Page Attribute) :
    page.tagged.written = page.written Attribute.written := by
  unfold tagged Tagged.written written
  rw [List.flatMap_map]
  exact congrArg (page.flatMap ·) (funext Item.written_tagged)

-- ============================================================= iframes

/-- Trimming takes off the blanks behind the attributes. -/
theorem trimmed_tagged (attributes : List Attribute) (tail : List Blank) :
    TaggedText.trimmed
        (attributes.map (fun a => .attr a.tagged) ++ tail.map .blank)
      = attributes.map fun a => .attr a.tagged := by
  induction attributes with
  | nil =>
    induction tail with
    | nil => rfl
    | cons b tail ih =>
      rw [List.map_nil, List.nil_append] at ih
      rw [List.map_nil, List.nil_append, List.map_cons, TaggedText.trimmed, ih]
  | cons a attributes ih => exact congrArg (.attr a.tagged :: ·) ih

/-- Iframes are closed in the page as in the tagged text. -/
theorem tagged_closed (page : Page Attribute) :
    (closed page).tagged = page.tagged.closed := by
  unfold tagged closed TaggedText.closed
  rw [List.map_flatMap, List.flatMap_map]
  refine congrArg (page.flatMap ·) (funext fun item => ?_)
  cases item with
  | text t => rfl
  | closing name => rfl
  | opening tag =>
    have hparts := trimmed_tagged tag.attributes tag.tail
    have hiframe : tag.tagged.isClosedIframe = tag.isClosedIframe := rfl
    unfold Item.closed Item.tagged TaggedText.Item.closed
    dsimp only
    rw [hiframe]
    split
    · unfold OpenTag.tagged
      rw [hparts]
      simp
    · rfl

-- ===================================================== attribute names

/-- Whether a name is a known one is no matter of a colon before it. -/
theorem Attribute.mixedCase?_tagged (a : Attribute) :
    a.tagged.mixedCase?.isSome = true
      ↔ a.name.text ∈ MixedCaseName.known := by
  have hfirst : a.name.text.head? ≠ some ':' := by
    intro h
    have hstart := a.name.first_start
    rw [Option.some.inj h] at hstart
    cases hstart
  have hsome {m : MixedCaseName} : (if a.name.text ∈ MixedCaseName.known
        then some m else none).isSome = true
      ↔ a.name.text ∈ MixedCaseName.known := by
    split <;> simp [*]
  unfold TaggedText.Attribute.mixedCase? tagged AttributeName.tagged
  dsimp only
  cases a.bound with
  | true => exact hsome
  | false =>
    show Option.isSome (if a.name.text.head? = some ':' then _ else
      if a.name.text ∈ MixedCaseName.known then _ else _) = true ↔ _
    rw [if_neg hfirst]
    exact hsome

theorem AttributeName.tagged_asciiLower (n : AttributeName) (bound : Bool) :
    n.asciiLower.tagged bound = (n.tagged bound).asciiLower := by
  cases bound <;> rfl

/-- A name is lowered in the page as in the tagged text. -/
theorem Attribute.tagged_lowered (a : Attribute) :
    a.lowered.tagged = a.tagged.lowered := by
  unfold lowered TaggedText.Attribute.lowered
  by_cases hmem : a.name.text ∈ MixedCaseName.known
  · rw [if_pos hmem, if_pos (a.mixedCase?_tagged.2 hmem)]
    unfold tagged
    rw [AttributeName.tagged_asciiLower]
  · rw [if_neg hmem, if_neg fun h => hmem (a.mixedCase?_tagged.1 h)]

/-- And so are all of them. -/
theorem tagged_lowered (page : Page Attribute) :
    (page.mapAttributes Attribute.lowered).tagged = page.tagged.lowered := by
  unfold tagged mapAttributes TaggedText.lowered TaggedText.mapAttributes
    Tagged.mapParts
  rw [List.map_map, List.map_map]
  refine congrArg (List.map · page) (funext fun item => ?_)
  cases item with
  | text t => rfl
  | closing name => rfl
  | opening tag =>
    have hattributes : (tag.attributes.map Attribute.lowered).map
          (fun a => TaggedText.Part.attr a.tagged)
        = (tag.attributes.map fun a => TaggedText.Part.attr a.tagged).map
          (TaggedText.Part.map TaggedText.Attribute.lowered) := by
      rw [List.map_map, List.map_map]
      exact congrArg (List.map · tag.attributes) (funext fun a : Attribute =>
        congrArg TaggedText.Part.attr a.tagged_lowered)
    show Item.tagged (.opening (tag.map Attribute.lowered))
      = .opening (tag.tagged.mapParts
        (TaggedText.Part.map TaggedText.Attribute.lowered))
    unfold Item.tagged OpenTag.tagged OpenTag.map TaggedText.OpenTag.mapParts
    dsimp only
    rw [hattributes, List.map_append, List.map_map (l := tag.tail)]
    rfl

-- =============================================================== values

/-- No value of a page holds the start of a tag. -/
theorem plain_of_mem_values {page : Page Attribute}
    {tag : TaggedText.OpenTag TaggedText.Part}
    (htag : .opening tag ∈ page.tagged) {v : TaggedText.QuotedValue}
    (hv : v ∈ tag.values) : '<' ∉ v.text := by
  obtain ⟨item, -, hitem⟩ := List.mem_map.1 htag
  cases item with
  | text t => cases hitem
  | closing name => cases hitem
  | opening source =>
    cases hitem
    obtain ⟨a, ha, hvalue⟩ := List.mem_filterMap.1 hv
    obtain ⟨part, hpart, hattribute⟩ := List.mem_filterMap.1 ha
    rcases List.mem_append.1 hpart with hpart | hpart
    · obtain ⟨b, -, rfl⟩ := List.mem_map.1 hpart
      cases hattribute
      unfold TaggedText.Attribute.value? Attribute.tagged at hvalue
      rw [Option.map_map] at hvalue
      obtain ⟨w, -, rfl⟩ := Option.map_eq_some_iff.1 hvalue
      exact fun hmem => (isPlain_iff.1 (w.plain _ hmem)).1 rfl
    · obtain ⟨b, -, rfl⟩ := List.mem_map.1 hpart
      cases hattribute

/-- No rule that looks for tags reads anything within the values of a
page. -/
theorem unreadBy_of_tagged {β : Type} {sc : Scanner β} (hsc : sc.SeeksTags)
    {page : Page Attribute} {tag : TaggedText.OpenTag TaggedText.Part}
    (htag : .opening tag ∈ page.tagged) :
    ∀ v ∈ tag.values, v.UnreadBy sc := by
  intro v hv a b heq s
  cases b with
  | nil =>
    refine hsc _ ?_ s
    rintro hquote
    have hquotes := v.quote_isQuote
    rw [hquote] at hquotes
    cases hquotes
  | cons c b =>
    refine hsc c ?_ _
    rintro rfl
    refine plain_of_mem_values htag hv ?_
    rw [heq]
    exact List.mem_append_right a List.mem_cons_self

-- ================================================================ rules

/-- The rule for iframes closes the self-closing ones of a page. -/
theorem text_apply_iframeClosing_written (page : Page Attribute) :
    (Rule.iframeClosing.apply (page.written Attribute.written)).text
      = (closed page).written Attribute.written := by
  rw [← written_tagged, ← written_tagged, tagged_closed]
  exact TaggedText.text_apply_iframeClosing_tagged fun tag htag _ =>
    unreadBy_of_tagged SelfClosingIframe.seeksTags_scanner htag

/-- The rule for casing lowers the known names of a page. -/
theorem text_apply_attributeCasing_written (page : Page Attribute) :
    (Rule.attributeCasing.apply (page.written Attribute.written)).text
      = (page.mapAttributes Attribute.lowered).written Attribute.written := by
  rw [← written_tagged, ← written_tagged, tagged_lowered]
  exact TaggedText.text_apply_attributeCasing_tagged page.tagged

end ComponentMarkdown.Page
