/-
Callouts of tagged text. The rule takes the opening and closing tags of
callouts, with whatever they hold, and no other tag (`OpenTag.scan_callout`,
`CloseTag.scan_callout`). What it puts in place of one are the tags that the
container is made of (`Item.contained_of_some`). Within quoted values it may
find a callout too; where it finds none, the text goes through the rule part
by part, with what is open behind each part handed on
(`text_apply_callouts_tagged`).
-/
import ComponentMarkdown.Proofs.Rule.CalloutSites
import ComponentMarkdown.Proofs.TaggedText.Classes
import ComponentMarkdown.Proofs.TaggedText.TagEnds

namespace ComponentMarkdown.TaggedText

open Markup

-- ============================================================== scanning

/-- The rule takes the closing tags of callouts. -/
theorem CloseTag.scan_callout (tag : CloseTag) (s : Text) :
    CalloutTag.scanner.scan (tag.written ++ s)
      = (Item.callout? (.closing tag)).map (⟨tag.written, ·⟩) := by
  have hwritten : tag.written ++ s = '<' :: '/' :: (tag.name.text
      ++ (tag.tail.map Subtype.val ++ '>' :: s)) := by
    simp [written, body]
  have hread : attributes? CalloutTag.end?
        (tag.tail.map Subtype.val ++ '>' :: s)
      = some (tag.tail.map Subtype.val, ⟨['>'], false⟩) :=
    attributes?_blanks_close CalloutTag.seesEnds_end isBlank_of_mem s
  have hbehind : ∀ c ∈ (tag.tail.map Subtype.val ++ '>' :: s).head?,
      isTagNameChar c = false := by
    intro c hc
    cases htail : tag.tail with
    | nil =>
      rw [htail] at hc
      cases hc
      decide +kernel
    | cons b tail =>
      rw [htail] at hc
      cases hc
      exact eq_false_of_isBlank (by decide +kernel) b.2
  rw [hwritten]
  show CalloutTag.read? ['<', '/'] true _ = _
  rw [CalloutTag.read?_name nameClass_isTagNameChar tag.name.nameChar hbehind,
    hread]
  unfold Item.callout? TagName.kind?
  dsimp only
  cases CalloutKind.named? tag.name.text with
  | none => rfl
  | some kind => simp [written, body]

/-- And it takes their opening tags. -/
theorem OpenTag.scan_callout (tag : OpenTag Part) (s : Text) :
    CalloutTag.scanner.scan (tag.written ++ s)
      = (Item.callout? (.opening tag)).map (⟨tag.written, ·⟩) := by
  have hwritten : tag.written ++ s = '<' :: (tag.name.text
      ++ (tag.parts.flatMap Part.written ++ (tag.ending ++ s))) := by
    simp [written, body]
  have hread : ∃ ending, tag.attributeText ++ ending
        = tag.parts.flatMap Part.written ++ tag.ending
      ∧ attributes? CalloutTag.end?
          (tag.parts.flatMap Part.written ++ (tag.ending ++ s))
        = some (tag.attributeText, ⟨ending, tag.slash⟩) := by
    cases hslash : tag.slash with
    | true => exact attributes?_slash CalloutTag.seesEnds_end hslash s
    | false =>
      refine ⟨['>'], ?_, attributes?_open CalloutTag.seesEnds_end hslash s⟩
      unfold attributeText ending
      rw [hslash]
      rfl
  have hslash (r : Text) : ∀ rest, tag.name.text ++ r ≠ '/' :: rest := by
    intro rest heq
    have halpha := tag.name.first_alpha
    rw [(List.cons.inj heq).1] at halpha
    exact absurd halpha (by decide)
  obtain ⟨ending, hending, hread⟩ := hread
  have htag : tag.written
      = '<' :: tag.name.text ++ tag.attributeText ++ ending := by
    rw [List.append_assoc, hending]
    rfl
  rw [hwritten]
  show CalloutTag.ofText? _ = _
  rw [CalloutTag.ofText?_of_no_slash (hslash _),
    CalloutTag.read?_name nameClass_isTagNameChar tag.name.nameChar
      (tag.isTagNameChar_behind s), hread, htag]
  unfold Item.callout? TagName.kind?
  dsimp only
  cases CalloutKind.named? tag.name.text with
  | none => rfl
  | some kind => rfl

/-- The text is cut into its callout tags, and characters. -/
theorem pieces_callouts_tagged {page : TaggedText}
    (h : ∀ tag, .opening tag ∈ page → tag.name.kind? = none →
      ∀ v ∈ tag.values, v.UnreadBy CalloutTag.scanner) :
    CalloutTag.scanner.pieces page.written
      = page.flatMap (Item.pieces Item.callout?) := by
  refine pieces_written CalloutTag.seeksTags_scanner (fun _ => rfl)
    CloseTag.scan_callout OpenTag.scan_callout ?_
  exact fun tag htag hnone => h tag htag (Option.map_eq_none_iff.1 hnone)

-- ============================================================ containers

/-- The rule writes a container if the classes of a tag can be merged, with
the parts that are no class attributes. -/
theorem OpenTag.container?_attributeText (kind : CalloutKind)
    (tag : OpenTag Part) :
    CalloutTag.container? ⟨false, kind, tag.attributeText, tag.slash⟩
      = tag.classes?.map fun classes => kind.container classes.val
        (((trimmed tag.parts).filter fun p => !p.isClass).flatMap
          Part.written) := by
  -- without class attributes, all parts are such parts
  have hparts (h : tag.attributes.filter Attribute.isClass = []) :
      ((trimmed tag.parts).filter fun p => !p.isClass)
        = trimmed tag.parts := by
    rw [List.filter_eq_nil_iff] at h
    rw [List.filter_eq_self]
    intro part hpart
    cases part with
    | blank b => rfl
    | attr a =>
      have hmem : a ∈ tag.attributes := by
        unfold attributes
        rw [← attributes_trimmed]
        exact List.mem_filterMap.2 ⟨.attr a, hpart, rfl⟩
      exact congrArg Bool.not (eq_false_of_ne_true (h a hmem))
  have hattributes : (trimmed tag.parts).filterMap Part.attribute?
      = tag.attributes := attributes_trimmed tag.parts
  unfold CalloutTag.container? classes?
  dsimp only
  rw [tag.trimEnd_attributeText, ofAttributes_parts, hattributes]
  cases hclass : tag.attributes.filter Attribute.isClass with
  | nil =>
    rw [Option.map_some, hparts hclass]
    rfl
  | cons a more =>
    cases more with
    | cons b more => rfl
    | nil =>
      dsimp only
      cases a.classes? <;> rfl

/-- What it writes is a tag. -/
theorem OpenTag.written_container (kind : CalloutKind) (tag : OpenTag Part) :
    (tag.container? kind).map OpenTag.written
      = CalloutTag.container? ⟨false, kind, tag.attributeText, tag.slash⟩ := by
  have hopening : "<div class=\"callout ".toList
      = '<' :: (containerName.text ++ ' ' :: ("class".toList
        ++ '=' :: '"' :: "callout ".toList)) := by decide
  rw [tag.container?_attributeText]
  unfold container?
  rw [Option.map_map]
  refine congrArg (Option.map · _) (funext fun classes => ?_)
  unfold CalloutKind.container
  rw [hopening]
  simp [written, body, ending, Part.written, Attribute.written,
    Attribute.head, Attribute.ending, containerClass, Assigned.written,
    QuotedValue.written]

/-- What the rule puts in place of a part is what the part becomes. -/
theorem Item.written_container {item : Item Part} {tag : CalloutTag}
    (hread : item.callout? = some tag) {opened : OpenCallouts} {new : Text}
    (hnew : (tag.convert? opened).1 = some new) :
    Tagged.written item.container = new := by
  have hend : containerEnd.written = CalloutTag.containerEnd := by decide
  have hconverts := CalloutTag.convert?_eq_some hnew
  cases item with
  | text t => cases hread
  | closing close =>
    obtain ⟨kind, -, rfl⟩ := Option.map_eq_some_iff.1 hread
    rcases hconverts with ⟨-, -, -, rfl⟩ | ⟨hopening, -⟩
    · exact (List.append_nil _).trans hend
    · cases hopening
  | opening open' =>
    obtain ⟨kind, hkind, rfl⟩ := Option.map_eq_some_iff.1 hread
    rcases hconverts with ⟨hclosing, -⟩ | ⟨-, text, htext, rfl⟩
    · cases hclosing
    · rw [← open'.written_container] at htext
      obtain ⟨container, hcontainer, rfl⟩ := Option.map_eq_some_iff.1 htext
      unfold Item.container
      dsimp only
      rw [hkind, Option.bind_some, hcontainer]
      dsimp only
      cases open'.slash with
      | false => exact rfl
      | true =>
        exact congrArg (container.written ++ ·)
          ((List.append_nil _).trans hend)

-- ======================================================= the whole text

/-- A part that is no callout stays. -/
theorem Item.contained_of_none {item : Item Part} (hread : item.callout? = none)
    (opened : OpenCallouts) : item.contained opened = ([item], opened) := by
  unfold contained
  rw [hread]

/-- One that is a callout becomes what the rule makes of it. -/
theorem Item.contained_of_some {item : Item Part} {tag : CalloutTag}
    (hread : item.callout? = some tag) (opened : OpenCallouts) :
    Tagged.written (item.contained opened).1
        = (tag.convert? opened).1.getD item.written
      ∧ (item.contained opened).2 = (tag.convert? opened).2 := by
  unfold contained
  rw [hread]
  refine ⟨?_, rfl⟩
  dsimp only
  cases hnew : (tag.convert? opened).1 with
  | none => exact List.append_nil _
  | some new => exact written_container hread hnew

/-- A splice of the pieces is what becomes of the text, part by part. -/
theorem text_splicePieces_tagged (page : TaggedText)
    (opened : OpenCallouts) :
    (Scanner.splicePieces calloutEdit
        (page.flatMap (Item.pieces Item.callout?)) opened).1.text
      = (contained opened page).written := by
  induction page generalizing opened with
  | nil => rfl
  | cons item page ih =>
    have hpieces : item.pieces Item.callout?
        = Scanner.whole item.written item.callout? := rfl
    have hcontained : (contained opened (item :: page)).written
        = Tagged.written (item.contained opened).1
          ++ Tagged.written (contained (item.contained opened).2 page) :=
      List.flatMap_append
    rw [List.flatMap_cons, hpieces, hcontained]
    cases hread : item.callout? with
    | none =>
      have hitem : Tagged.written [item] = item.written := List.append_nil _
      rw [Scanner.whole, Scanner.text_splicePieces_chars, ih,
        Item.contained_of_none hread, hitem]
    | some tag =>
      obtain ⟨hwritten, hopened⟩ := Item.contained_of_some hread opened
      rw [Scanner.whole, List.singleton_append, text_splicePieces_callout,
        ih, hwritten, hopened]

/-- The rule for callouts makes containers of those of tagged text, if it
reads nothing within the quoted values of other tags. -/
theorem text_apply_callouts_tagged {page : TaggedText}
    (hcode : '\x60' ∉ page.written)
    (h : ∀ tag, .opening tag ∈ page → tag.name.kind? = none →
      ∀ v ∈ tag.values, v.UnreadBy CalloutTag.scanner) :
    (Rule.callouts.apply page.written).text
      = (contained [] page).written := by
  have hgap : (convertCallouts page.written []).1.text
      = (contained [] page).written := by
    show (Scanner.splicePieces calloutEdit
      (CalloutTag.scanner.pieces page.written) []).1.text = _
    rw [pieces_callouts_tagged h, text_splicePieces_tagged]
  rw [text_apply_callouts, CodeSplit.ofText_of_not_mem hcode, ← hgap]
  exact List.append_nil _

end ComponentMarkdown.TaggedText
