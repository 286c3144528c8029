/-
Callouts over a whole document: which closing tag goes with which opening
tag, and whether the two are converted together. The rule starts afresh in
every segment of prose, with nothing open. A closing tag in the segment of
its opening tag finds it, and stays if that tag stayed; one in a later
segment, behind a fenced block, finds nothing open and is converted whatever
became of its opening tag (`pairing_edit`, `pairing_across_block`).

The sites of a document are those of its segments, one segment after the
other, each in its place in what the rules before have made of the document
(`calloutsEdited`). So the sites of the latest segment are the rear part of
any list of sites that ends in it (`exists_front`).
-/
import ComponentMarkdown.Proofs.Rule.CalloutSites
import ComponentMarkdown.Proofs.Segment.Partition

namespace ComponentMarkdown

open CalloutSite

-- ======================================================= segment offsets

/-- The segments of a document start one behind the other. -/
theorem Segment.offset_le_of_tiles {start stop : Nat}
    {segments : List Segment} (h : Tiles start segments stop) :
    ∀ s ∈ segments, start ≤ s.offset := by
  induction segments generalizing start with
  | nil => simp
  | cons s segments ih =>
    obtain ⟨hs, hrest⟩ := h
    refine List.forall_mem_cons.2 ⟨Nat.le_of_eq hs.symm, fun s' hs' => ?_⟩
    have hle := ih hrest s' hs'
    unfold Segment.stop at hle
    omega

/-- Segments that tile a text start one behind the other. -/
theorem Segment.pairwise_offset {start stop : Nat} {segments : List Segment}
    (h : Tiles start segments stop) (hne : ∀ s ∈ segments, s.text ≠ []) :
    segments.Pairwise fun s s' => s.offset < s'.offset := by
  induction segments generalizing start with
  | nil => exact .nil
  | cons s segments ih =>
    obtain ⟨hs, hrest⟩ := h
    obtain ⟨hsne, hne⟩ := List.forall_mem_cons.1 hne
    refine List.pairwise_cons.2 ⟨fun s' hs' => ?_, ih hrest hne⟩
    have hle := offset_le_of_tiles hrest s' hs'
    have hpos : 0 < s.text.byteLength := by
      obtain ⟨c, t, ht⟩ := List.exists_cons_of_ne_nil hsne
      rw [ht, Text.byteLength_cons]
      have := c.utf8Size_pos
      omega
    unfold Segment.stop at hle
    omega

-- =================================================== sites in their order

namespace CalloutSite

/-- The sites of some parts of a document, each with the offset and the
callout tags of a segment. -/
def ofParts (parts : List (Nat × List (Match CalloutTag))) :
    List CalloutSite :=
  parts.flatMap fun p => ofMatches p.1 p.2 []

theorem ofParts_cons (segment : Nat) (ms : List (Match CalloutTag))
    (parts : List (Nat × List (Match CalloutTag))) :
    ofParts ((segment, ms) :: parts)
      = ofMatches segment ms [] ++ ofParts parts := rfl

variable {parts : List (Nat × List (Match CalloutTag))}

/-- A site belongs to a segment, and its match is one of that segment. -/
theorem exists_part_of_mem {site : CalloutSite} (h : site ∈ ofParts parts) :
    ∃ p ∈ parts, site.segment = p.1 ∧ site.toMatch ∈ p.2 := by
  obtain ⟨p, hp, hsite⟩ := List.mem_flatMap.1 h
  refine ⟨p, hp, segment_of_mem_ofMatches hsite, ?_⟩
  rw [← map_toMatch_ofMatches p.1 p.2 []]
  exact List.mem_map_of_mem hsite

/-- The sites stand one segment after the other. -/
theorem pairwise_ofParts (h : parts.Pairwise fun p p' => p.1 < p'.1) :
    (ofParts parts).Pairwise fun s s' => s.segment ≤ s'.segment := by
  induction parts with
  | nil => exact .nil
  | cons p parts ih =>
    obtain ⟨hp, hparts⟩ := List.pairwise_cons.1 h
    unfold ofParts
    rw [List.flatMap_cons, List.pairwise_append]
    refine ⟨?_, ih hparts, fun s hs s' hs' => ?_⟩
    · refine List.Pairwise.imp_of_mem (R := fun _ _ => True) ?_
        (List.pairwise_of_forall fun _ _ => trivial)
      intro s s' hs hs' _
      exact Nat.le_of_eq (by
        rw [segment_of_mem_ofMatches hs, segment_of_mem_ofMatches hs'])
    · have hmem : s' ∈ ofParts parts := hs'
      obtain ⟨p', hp', heq, -⟩ := exists_part_of_mem hmem
      rw [segment_of_mem_ofMatches hs, heq]
      exact Nat.le_of_lt (hp p' hp')

/-- The sites of a segment are all in that segment, -/
theorem filter_of_subset_ofMatches {p : Nat × List (Match CalloutTag)}
    {sites : List CalloutSite} (h : sites ⊆ ofMatches p.1 p.2 []) :
    sites.filter (fun s => s.segment = p.1) = sites := by
  rw [List.filter_eq_self]
  intro s hs
  rw [segment_of_mem_ofMatches (h hs)]
  simp

/-- and those of other segments are not. -/
theorem filter_ofParts_of_ne {segment : Nat}
    (h : ∀ p ∈ parts, p.1 ≠ segment) :
    (ofParts parts).filter (fun s => s.segment = segment) = [] := by
  rw [List.filter_eq_nil_iff]
  intro s hs
  obtain ⟨p, hp, heq, -⟩ := exists_part_of_mem hs
  rw [heq]
  simpa using h p hp

/-- The sites of one segment are those of its part. -/
theorem filter_ofParts {front rear : List (Nat × List (Match CalloutTag))}
    {p : Nat × List (Match CalloutTag)}
    (h : (front ++ p :: rear).Pairwise fun p p' => p.1 < p'.1) :
    (ofParts (front ++ p :: rear)).filter (fun s => s.segment = p.1)
      = ofMatches p.1 p.2 [] := by
  obtain ⟨-, hrear, hfront⟩ := List.pairwise_append.1 h
  obtain ⟨hp, -⟩ := List.pairwise_cons.1 hrear
  have hsplit : ofParts (front ++ p :: rear)
      = ofParts front ++ (ofMatches p.1 p.2 [] ++ ofParts rear) :=
    List.flatMap_append
  rw [hsplit, List.filter_append, List.filter_append,
    filter_ofParts_of_ne (fun q hq =>
      Nat.ne_of_lt (hfront q hq p List.mem_cons_self)),
    filter_ofParts_of_ne (fun q hq => Nat.ne_of_gt (hp q hq)),
    filter_of_subset_ofMatches (List.Subset.refl _), List.append_nil]
  rfl

/-- What a site becomes is what its tag becomes behind the tags before it in
its segment. -/
theorem new?_of_ofParts (h : parts.Pairwise fun p p' => p.1 < p'.1)
    {before after : List CalloutSite} {site : CalloutSite}
    (hsites : ofParts parts = before ++ site :: after) :
    site.new?
      = (site.tag.convert? (CalloutTag.openedAfter
          ((before.filter fun s => s.segment = site.segment).map tag) [])).1 := by
  have hmem : site ∈ ofParts parts := by
    rw [hsites]
    exact List.mem_append_cons_self
  obtain ⟨p, hp, heq, -⟩ := exists_part_of_mem hmem
  obtain ⟨front, rear, rfl⟩ := List.append_of_mem hp
  have hpart := filter_ofParts h
  rw [hsites, List.filter_append, List.filter_cons_of_pos (by simpa using heq)]
    at hpart
  rw [heq]
  exact new?_of_ofMatches hpart.symm

/-- Among sites in their order, those of the latest segment come last. -/
theorem exists_front {sites : List CalloutSite} {segment : Nat}
    (hsorted : sites.Pairwise fun s s' => s.segment ≤ s'.segment)
    (hle : ∀ s ∈ sites, s.segment ≤ segment) :
    ∃ front, sites = front ++ sites.filter fun s => s.segment = segment := by
  induction sites with
  | nil => exact ⟨[], rfl⟩
  | cons s sites ih =>
    obtain ⟨hs, hsites⟩ := List.pairwise_cons.1 hsorted
    obtain ⟨hsle, hle⟩ := List.forall_mem_cons.1 hle
    by_cases heq : s.segment = segment
    · refine ⟨[], ?_⟩
      rw [List.nil_append]
      symm
      rw [List.filter_eq_self]
      intro s' hs'
      rcases List.mem_cons.1 hs' with rfl | hs'
      · simpa using heq
      · have := hs s' hs'
        have := hle s' hs'
        simp only [decide_eq_true_eq]
        omega
    · obtain ⟨front, hfront⟩ := ih hsites hle
      refine ⟨s :: front, ?_⟩
      rw [List.filter_cons_of_neg (by simpa using heq), List.cons_append,
        ← hfront]

end CalloutSite

-- ============================================================ a document

namespace Transformer

/-- A transformer with the callouts rule behind its rules. -/
def withCallouts (t : Transformer) : Transformer :=
  ⟨t.suffix, t.pipeline.push .callouts⟩

variable (t : Transformer)

/-- The callout tags of a segment, once a transformer has edited it, where
what it made of the segment starts at a place. -/
def segmentMatches (place : Nat) (s : Segment) : List (Match CalloutTag) :=
  match s.kind with
  | .prose => CalloutTag.scanner.matchesOutside place (t.segmentOutput s).text
  | .verbatim => []

/-- The callout tags of segments that a transformer has edited, each with
the offset of its segment, where what it made of the first starts at a
place. -/
def partsFrom : Nat → List Segment → List (Nat × List (Match CalloutTag))
  | _, [] => []
  | place, s :: segments =>
    (s.offset, t.segmentMatches place s)
      :: partsFrom (place + (t.segmentOutput s).text.length) segments

/-- The sites of the callouts in a document that a transformer has
edited. -/
def calloutSites (source : Text) : List CalloutSite :=
  ofParts (t.partsFrom 0 (Segment.ofDocument source))

/-- The parts are named by where their segments start. -/
theorem map_fst_partsFrom (place : Nat) (segments : List Segment) :
    (t.partsFrom place segments).map Prod.fst
      = segments.map Segment.offset := by
  induction segments generalizing place with
  | nil => rfl
  | cons s segments ih => rw [partsFrom, List.map_cons, List.map_cons, ih]

/-- So no two of them have one name, and they are in order. -/
theorem pairwise_parts (source : Text) :
    (t.partsFrom 0 (Segment.ofDocument source)).Pairwise
      fun p p' => p.1 < p'.1 := by
  have h := Segment.pairwise_offset (Segment.tiles_ofDocument source)
    (fun s hs => Segment.text_ne_nil hs)
  rw [← List.pairwise_map, ← t.map_fst_partsFrom 0, List.pairwise_map] at h
  exact h

theorem partsFrom_append (place : Nat) (front rear : List Segment) :
    t.partsFrom place (front ++ rear)
      = t.partsFrom place front
        ++ t.partsFrom (place + (t.segmentsText front).length) rear := by
  induction front generalizing place with
  | nil => rfl
  | cons s front ih =>
    have htext : t.segmentsText (s :: front)
        = (t.segmentOutput s).text ++ t.segmentsText front := rfl
    rw [List.cons_append, partsFrom, partsFrom, ih, htext,
      List.length_append, Nat.add_assoc]
    rfl

-- ======================================================== in their places

/-- The sites of a segment are its callout tags, in what the transformer
made of it and behind what it made of the segments in front. -/
theorem filter_calloutSites {source : Text} {front rear : List Segment}
    {s : Segment} (h : Segment.ofDocument source = front ++ s :: rear) :
    ((t.calloutSites source).filter fun site =>
        site.segment = s.offset).map toMatch
      = t.segmentMatches (t.segmentsText front).length s := by
  have hparts := t.pairwise_parts source
  unfold calloutSites
  rw [h, partsFrom_append, partsFrom, Nat.zero_add] at hparts ⊢
  rw [filter_ofParts hparts, map_toMatch_ofMatches]

/-- Every site is one of prose, where it stands outside code spans. -/
theorem outsideCode_of_mem_calloutSites {source : Text} {site : CalloutSite}
    (hsite : site ∈ t.calloutSites source) :
    ∃ front s rear, Segment.ofDocument source = front ++ s :: rear
      ∧ s.kind = .prose ∧ site.segment = s.offset
      ∧ site.toMatch.OutsideCode (t.segmentsText front).length
        (t.segmentOutput s).text := by
  obtain ⟨p, hp, hsegment, -⟩ := exists_part_of_mem hsite
  have hoffset : p.1 ∈ (Segment.ofDocument source).map Segment.offset := by
    rw [← t.map_fst_partsFrom 0]
    exact List.mem_map_of_mem hp
  obtain ⟨s, hs, heq⟩ := List.mem_map.1 hoffset
  obtain ⟨front, rear, hdocument⟩ := List.append_of_mem hs
  have hmem : site.toMatch
      ∈ t.segmentMatches (t.segmentsText front).length s := by
    rw [← t.filter_calloutSites hdocument]
    refine List.mem_map_of_mem (List.mem_filter.2 ⟨hsite, ?_⟩)
    simpa using hsegment.trans heq.symm
  unfold segmentMatches at hmem
  cases hkind : s.kind with
  | verbatim =>
    rw [hkind] at hmem
    cases hmem
  | prose =>
    rw [hkind] at hmem
    exact ⟨front, s, rear, hdocument, hkind, hsegment.trans heq.symm,
      CalloutTag.scanner.outsideCode_of_mem_matchesOutside hmem⟩

/-- The sites hold the callout tags that stand outside fenced blocks and
code spans, in their order. -/
theorem map_tag_calloutSites (source : Text) :
    (t.calloutSites source).map tag
      = (Segment.ofDocument source).flatMap fun s =>
        if s.isProse then calloutTagsOf (t.segmentOutput s).text else [] := by
  have hparts (place : Nat) (segments : List Segment) :
      (ofParts (t.partsFrom place segments)).map tag
        = segments.flatMap fun s =>
          if s.isProse then calloutTagsOf (t.segmentOutput s).text
          else [] := by
    induction segments generalizing place with
    | nil => rfl
    | cons s segments ih =>
      rw [partsFrom, ofParts_cons, List.map_append, ih, List.flatMap_cons,
        map_tag_ofMatches]
      refine congrArg (· ++ _) ?_
      unfold segmentMatches Segment.isProse
      cases s.kind with
      | verbatim => rfl
      | prose => exact CalloutTag.map_value_matchesOutside _ _
  exact hparts 0 _

/-- The matches of the segments stand in order in the whole text. -/
theorem inOrder_partsFrom (front : Text) (segments : List Segment) :
    InOrder (front ++ t.segmentsText segments) front.length
      ((ofParts (t.partsFrom front.length segments)).map toMatch) := by
  induction segments generalizing front with
  | nil => trivial
  | cons s segments ih =>
    have htext : t.segmentsText (s :: segments)
        = (t.segmentOutput s).text ++ t.segmentsText segments := rfl
    have hrest := ih (front ++ (t.segmentOutput s).text)
    rw [List.append_assoc, List.length_append] at hrest
    rw [partsFrom, ofParts_cons, List.map_append, map_toMatch_ofMatches, htext]
    unfold segmentMatches
    cases s.kind with
    | verbatim => exact hrest.of_le (Nat.le_add_right _ _)
    | prose => exact CalloutTag.scanner.inOrder_outsideCode front _ _ _ hrest

/-- The callouts rule behind a transformer converts the prose that the
transformer leaves. -/
theorem text_segmentOutput_withCallouts (s : Segment) :
    (t.withCallouts.segmentOutput s).text
      = if s.isProse then (Rule.callouts.apply (t.segmentOutput s).text).text
        else (t.segmentOutput s).text := by
  unfold segmentOutput withCallouts Segment.isProse
  cases s.kind with
  | verbatim => rfl
  | prose =>
    unfold Pipeline.run Pipeline.push
    rw [List.foldl_append, List.foldl_cons, List.foldl_nil]
    exact Pipeline.Output.text_absorb _ _ text_apply_callouts_of_count_zero

/-- What the sites come to, segment by segment, is what the callouts rule
makes of what stands behind some text. -/
theorem woven_partsFrom (front : Text) (segments : List Segment) :
    woven (front ++ t.segmentsText segments) front.length
        ((ofParts (t.partsFrom front.length segments)).map answered)
      = t.withCallouts.segmentsText segments := by
  induction segments generalizing front with
  | nil => exact List.drop_left
  | cons s segments ih =>
    have htext (t : Transformer) : t.segmentsText (s :: segments)
        = (t.segmentOutput s).text ++ t.segmentsText segments := rfl
    have hrest := ih (front ++ (t.segmentOutput s).text)
    have hinOrder := t.inOrder_partsFrom (front ++ (t.segmentOutput s).text)
      segments
    rw [List.append_assoc, List.length_append] at hrest hinOrder
    have hbehind : ∀ a ∈ (ofParts (t.partsFrom
          (front.length + (t.segmentOutput s).text.length) segments)).map
            answered,
        front.length + (t.segmentOutput s).text.length ≤ a.1.start := by
      intro a ha
      obtain ⟨site, hsite, rfl⟩ := List.mem_map.1 ha
      exact hinOrder.le_start (List.mem_map_of_mem hsite)
    rw [partsFrom, ofParts_cons, List.map_append, htext, htext,
      text_segmentOutput_withCallouts, ← hrest]
    unfold segmentMatches Segment.isProse
    cases s.kind with
    | prose => exact woven_apply_callouts s.offset front _ _ _ hbehind
    | verbatim =>
      exact (woven_of_le (Nat.le_add_right _ _) hbehind).trans
        (congrArg (· ++ _) (stretch_middle front _ _))

-- ============================================================== pairs

section

variable {t} {source : Text} {kind : CalloutKind}
  {front inner rear : List CalloutSite} {opening closing : CalloutSite}
  (hsites : t.calloutSites source
    = front ++ opening :: (inner ++ closing :: rear))

include hsites

/-- Between the tags of a pair there are only segments between theirs. -/
theorem pairwise_pair :
    (front ++ opening :: (inner ++ closing :: rear)).Pairwise
      fun s s' => s.segment ≤ s'.segment := by
  rw [← hsites]
  exact pairwise_ofParts (t.pairwise_parts source)

/-- What is open of a kind before a closing tag that stands in the segment
of its opening tag: that tag, and what was open before it. -/
theorem ofKind_of_same_segment (hopens : opening.tag.opens kind = true)
    (hbalanced : CalloutTag.Balanced kind (inner.map tag))
    (hsame : opening.segment = closing.segment) :
    ∃ below, OpenCallouts.ofKind kind (CalloutTag.openedAfter
        (((front ++ opening :: inner).filter
          fun s => s.segment = closing.segment).map tag) [])
      = opening.tag.container?.isSome :: below := by
  have hsorted := (List.pairwise_append.1 (pairwise_pair hsites)).2.1
  obtain ⟨hfirst, hrest⟩ := List.pairwise_cons.1 hsorted
  have hinner : inner.filter (fun s => s.segment = closing.segment)
      = inner := by
    rw [List.filter_eq_self]
    intro s hs
    have hle := hfirst s (List.mem_append_left _ hs)
    have hge := (List.pairwise_append.1 hrest).2.2 s hs closing
      List.mem_cons_self
    simp only [decide_eq_true_eq]
    omega
  rw [List.filter_append, List.filter_cons_of_pos (by simpa using hsame),
    hinner, List.map_append, List.map_cons, CalloutTag.openedAfter_append]
  have hstack := CalloutTag.ofKind_next kind opening.tag
    (CalloutTag.openedAfter
      ((front.filter fun s => s.segment = closing.segment).map tag) [])
  rw [if_pos hopens] at hstack
  exact ⟨_, (CalloutTag.ofKind_openedAfter_of_balanced hbalanced _).trans
    hstack⟩

/-- Nothing is open of a kind before a closing tag that stands in a later
segment than its opening tag. -/
theorem ofKind_of_later_segment
    (hbalanced : CalloutTag.Balanced kind (inner.map tag))
    (hlater : opening.segment ≠ closing.segment) :
    OpenCallouts.ofKind kind (CalloutTag.openedAfter
        (((front ++ opening :: inner).filter
          fun s => s.segment = closing.segment).map tag) []) = [] := by
  have hall := pairwise_pair hsites
  obtain ⟨-, hsorted, hfront⟩ := List.pairwise_append.1 hall
  obtain ⟨hfirst, hrest⟩ := List.pairwise_cons.1 hsorted
  obtain ⟨hinner, -, hclosing⟩ := List.pairwise_append.1 hrest
  have hopening := hfirst closing (by simp)
  have hnone : (front ++ [opening]).filter
      (fun s => s.segment = closing.segment) = [] := by
    rw [List.filter_eq_nil_iff]
    intro s hs
    have hle : s.segment ≤ opening.segment := by
      rcases List.mem_append.1 hs with hs | hs
      · exact hfront s hs opening List.mem_cons_self
      · exact Nat.le_of_eq (by rw [List.mem_singleton.1 hs])
    simp only [decide_eq_true_eq]
    omega
  obtain ⟨part, hpart⟩ := exists_front hinner
    (fun s hs => hclosing s hs closing List.mem_cons_self)
  have hsplit : front ++ opening :: inner = front ++ [opening] ++ inner := by
    simp
  rw [hsplit, List.filter_append, hnone, List.nil_append]
  rw [hpart, List.map_append] at hbalanced
  exact CalloutTag.ofKind_openedAfter_of_rear hbalanced

end

/-- What an edit that ends with the callouts rule does to a document: the
callout tags that the rules before have left stand in their text in order,
in prose and in no code span; and what each becomes is put in its place. -/
structure CalloutsEdited (source : Text) : Prop where
  tags : (t.calloutSites source).map tag
    = (Segment.ofDocument source).flatMap fun s =>
      if s.isProse then calloutTagsOf (t.segmentOutput s).text else []
  matched : ∀ front s rear, Segment.ofDocument source = front ++ s :: rear →
    ((t.calloutSites source).filter fun site =>
        site.segment = s.offset).map toMatch
      = t.segmentMatches (t.segmentsText front).length s
  outsideCode : ∀ site ∈ t.calloutSites source,
    ∃ front s rear, Segment.ofDocument source = front ++ s :: rear
      ∧ s.kind = .prose ∧ site.segment = s.offset
      ∧ site.toMatch.OutsideCode (t.segmentsText front).length
        (t.segmentOutput s).text
  inOrder : InOrder ((t.edit source).text?.getD source) 0
    ((t.calloutSites source).map toMatch)
  text : (t.withCallouts.edit source).text?.getD source
    = woven ((t.edit source).text?.getD source) 0
      ((t.calloutSites source).map answered)

/-- The last rule edits a document at the sites of its callouts. -/
theorem calloutsEdited (source : Text) : t.CalloutsEdited source where
  tags := t.map_tag_calloutSites source
  matched _ _ _ h := t.filter_calloutSites h
  outsideCode _ h := t.outsideCode_of_mem_calloutSites h
  inOrder := by
    rw [text_edit]
    exact t.inOrder_partsFrom [] _
  text := by
    rw [text_edit, text_edit]
    exact (t.woven_partsFrom [] _).symm

/-- An edit that ends with the callouts rule puts what each callout tag of
the document becomes in the place of the tag, and touches nothing else of
what the rules before have made. An opening tag becomes a container unless
its class cannot be merged. The closing tag that belongs to it, with each
tag of the kind between them paired, becomes the end of a container if the
opening tag was converted or stands in another segment of prose, and stays
otherwise. -/
theorem pairing_edit (source : Text) :
    t.CalloutsEdited source
      ∧ ∀ kind front opening inner closing rear,
        t.calloutSites source
          = front ++ opening :: (inner ++ closing :: rear) →
        opening.tag.opens kind = true → closing.tag.closes kind = true →
        CalloutTag.Balanced kind (inner.map tag) →
        opening.new? = opening.tag.container?
          ∧ closing.new?
            = if opening.new?.isSome ∨ opening.segment ≠ closing.segment
              then some CalloutTag.containerEnd else none := by
  refine ⟨t.calloutsEdited source, ?_⟩
  intro kind front opening inner closing rear hsites hopens hcloses hbalanced
  have hopening := new?_of_ofParts (t.pairwise_parts source) hsites
  rw [CalloutTag.convert?_of_opens hopens] at hopening
  have hsites' : t.calloutSites source
      = (front ++ opening :: inner) ++ closing :: rear := by
    rw [hsites]
    simp
  have hclosing := new?_of_ofParts (t.pairwise_parts source) hsites'
  rw [CalloutTag.convert?_of_closes hcloses] at hclosing
  refine ⟨hopening, ?_⟩
  rw [hclosing, hopening]
  by_cases hsame : opening.segment = closing.segment
  · obtain ⟨below, hbelow⟩ :=
      ofKind_of_same_segment hsites hopens hbalanced hsame
    rw [hbelow, List.head?_cons]
    cases opening.tag.container?.isSome <;> simp [hsame]
  · rw [ofKind_of_later_segment hsites hbalanced hsame]
    simp [hsame]

/-- Across a fenced block, the closing tag of a callout that stays is
converted all the same. -/
theorem pairing_across_block :
    (standard.edit
        "<Note :class=\"c\">\n~~~\nx\n~~~\n</Note>\n".toList).text?
        = some "<Note :class=\"c\">\n~~~\nx\n~~~\n</div>\n".toList
      ∧ (calloutSites
          ⟨".md", ⟨[.braceAttributes, .iframeClosing, .attributeCasing]⟩⟩
          "<Note :class=\"c\">\n~~~\nx\n~~~\n</Note>\n".toList).map
          (fun s => (s.tag.opens .note, s.tag.closes .note, s.start, s.new?))
        = [(true, false, 0, none),
          (false, true, 28, some "</div>".toList)] := by
  decide +kernel

end Transformer

end ComponentMarkdown
