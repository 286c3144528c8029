/-
Where the callout tags of a text stand, and what each becomes. The sites
are the matches of the callout tags outside the code spans, in their order
and each with its place; the text after the rule is the text before it with
what every site becomes in the place of its tag, and all else as it was
(`answered_apply_callouts`). What a site becomes depends on the tags before
it alone (`new?_of_ofMatches`).
-/
import ComponentMarkdown.Proofs.Markup.OutsideMatches
import ComponentMarkdown.Proofs.Rule.CalloutPairs

namespace ComponentMarkdown

open Markup

-- ================================================================ sites

/-- A callout tag in a document: where it stands and what is read, the
offset of its segment, and what it becomes, if it does not stay. -/
structure CalloutSite extends Match CalloutTag where
  segment : Nat
  new? : Option Text

/-- How a callout tag is replaced, given what is open before it. -/
def calloutNew? (h : Hit CalloutTag) (opened : OpenCallouts) :
    Option Text × OpenCallouts :=
  h.value.convert? opened

/-- The callout tags of a text outside its code spans are those of their
matches. -/
theorem CalloutTag.map_value_matchesOutside (place : Nat) (s : Text) :
    (CalloutTag.scanner.matchesOutside place s).map (fun m => m.hit.value)
      = calloutTagsOf s := by
  have hhits := CalloutTag.scanner.map_hit_matchesOutside place s
  have hvalues := congrArg (List.map Hit.value) hhits
  rw [List.map_map, List.map_flatMap] at hvalues
  exact hvalues

namespace CalloutSite

/-- The tag at a site. -/
def tag (site : CalloutSite) : CalloutTag := site.hit.value

/-- The tag at a site, answered by what it becomes, which counts one. -/
def answered (site : CalloutSite) : Match CalloutTag × Option Edited :=
  (site.toMatch, site.new?.map (⟨·, 1⟩))

/-- The sites of some callout tags of a segment, where some tags are open
before them. -/
def ofMatches (segment : Nat) :
    List (Match CalloutTag) → OpenCallouts → List CalloutSite
  | [], _ => []
  | m :: ms, opened =>
    ⟨m, segment, (m.hit.value.convert? opened).1⟩
      :: ofMatches segment ms (m.hit.value.convert? opened).2

theorem map_toMatch_ofMatches (segment : Nat) (ms : List (Match CalloutTag))
    (opened : OpenCallouts) :
    (ofMatches segment ms opened).map toMatch = ms := by
  induction ms generalizing opened with
  | nil => rfl
  | cons m ms ih => rw [ofMatches, List.map_cons, ih]

theorem map_tag_ofMatches (segment : Nat) (ms : List (Match CalloutTag))
    (opened : OpenCallouts) :
    (ofMatches segment ms opened).map tag
      = ms.map fun m => m.hit.value := by
  induction ms generalizing opened with
  | nil => rfl
  | cons m ms ih =>
    rw [ofMatches, List.map_cons, List.map_cons, ih]
    rfl

theorem segment_of_mem_ofMatches {segment : Nat}
    {ms : List (Match CalloutTag)} {opened : OpenCallouts}
    {site : CalloutSite} (h : site ∈ ofMatches segment ms opened) :
    site.segment = segment := by
  induction ms generalizing opened with
  | nil => cases h
  | cons m ms ih =>
    rcases List.mem_cons.1 h with rfl | h
    · rfl
    · exact ih h

/-- The sites are answered as the tags are replaced one after the other. -/
theorem map_answered_ofMatches (segment : Nat)
    (ms : List (Match CalloutTag)) (opened : OpenCallouts) :
    (ofMatches segment ms opened).map answered
      = answers (countingOne (Scanner.newAtMatch calloutNew?)) ms opened := by
  induction ms generalizing opened with
  | nil => rfl
  | cons m ms ih =>
    rw [ofMatches, List.map_cons, ih]
    rfl

/-- What a site becomes is what its tag becomes behind the tags before
it. -/
theorem new?_of_ofMatches {segment : Nat} {ms : List (Match CalloutTag)}
    {opened : OpenCallouts} {before after : List CalloutSite}
    {site : CalloutSite}
    (h : ofMatches segment ms opened = before ++ site :: after) :
    site.new?
      = (site.tag.convert?
          (CalloutTag.openedAfter (before.map tag) opened)).1 := by
  induction ms generalizing opened before with
  | nil => simp [ofMatches] at h
  | cons m ms ih =>
    rw [ofMatches] at h
    cases before with
    | nil =>
      obtain ⟨rfl, -⟩ := List.cons.inj h
      rfl
    | cons first before =>
      obtain ⟨rfl, hrest⟩ := List.cons.inj h
      have hnew := ih hrest
      exact hnew

/-- The callout tags of a text outside its code spans, and what each
becomes. -/
def ofText (s : Text) : List CalloutSite :=
  ofMatches 0 (CalloutTag.scanner.matchesOutside 0 s) []

end CalloutSite

-- ============================================================= one text

open CalloutSite

/-- What comes of a text in which the callout tags are answered: they stand
in it in order, in no code span, and what each becomes is put in its
place. -/
structure CalloutsAnswered (s : Text) (sites : List CalloutSite)
    (result : Edited) : Prop where
  matched : sites.map toMatch = CalloutTag.scanner.matchesOutside 0 s
  inOrder : InOrder s 0 (sites.map toMatch)
  outsideCode : ∀ site ∈ sites, site.toMatch.OutsideCode 0 s
  splice : IsSplice s (sites.map answered) result

theorem text_splicePieces_callout (h : Hit CalloutTag)
    (ps : List (Piece CalloutTag)) (opened : OpenCallouts) :
    (Scanner.splicePieces calloutEdit (.hit h :: ps) opened).1.text
      = (h.value.convert? opened).1.getD h.taken
        ++ (Scanner.splicePieces calloutEdit ps
          (h.value.convert? opened).2).1.text := by
  rw [Scanner.splicePieces_hit]
  unfold calloutEdit
  cases (h.value.convert? opened).1 with
  | none => rfl
  | some new => rfl

/-- The rule converts the gaps, each with what is open before it. -/
theorem text_apply_callouts (s : Text) :
    (Rule.callouts.apply s).text
      = ((CodeSplit.ofText s).editGaps convertCallouts []).1.text :=
  text_editOutsideCode keepsUncounted_convertCallouts [] s

/-- What the sites of a part of a longer text come to is what the rule makes
of the part, and what later matches come to stands behind it. -/
theorem woven_apply_callouts (segment : Nat) (front mid more : Text)
    (later : List (Match CalloutTag × Option Edited))
    (hlater : ∀ a ∈ later, front.length + mid.length ≤ a.1.start) :
    woven (front ++ (mid ++ more)) front.length
        ((ofMatches segment
          (CalloutTag.scanner.matchesOutside front.length mid) []).map answered
            ++ later)
      = (Rule.callouts.apply mid).text
        ++ woven (front ++ (mid ++ more)) (front.length + mid.length)
          later := by
  have halike := (Scanner.answersAlike_substitution calloutNew?).woven_eq
    (front ++ (mid ++ more))
    (CalloutTag.scanner.matchesOutside front.length mid) front.length [] later
  rw [map_answered_ofMatches, ← halike.1]
  exact CalloutTag.scanner.woven_outsideCode calloutEdit front mid more later
    hlater []

/-- The rule puts what every site becomes in the place of its tag, and
touches nothing else. -/
theorem answered_apply_callouts (s : Text) :
    CalloutsAnswered s (ofText s) (Rule.callouts.apply s) := by
  have hmatched : (ofText s).map toMatch
      = CalloutTag.scanner.matchesOutside 0 s := map_toMatch_ofMatches 0 _ []
  have hinOrder := CalloutTag.scanner.inOrder_matchesOutside s
  refine ⟨hmatched, hmatched ▸ hinOrder, fun site hsite => ?_, ?_⟩
  · refine CalloutTag.scanner.outsideCode_of_mem_matchesOutside ?_
    rw [← hmatched]
    exact List.mem_map_of_mem hsite
  · have hsplice := CalloutTag.scanner.isSplice_outsideCode calloutEdit [] s
    have halike := (Scanner.answersAlike_substitution calloutNew?).woven_eq s
      (CalloutTag.scanner.matchesOutside 0 s) 0 [] []
    rw [List.append_nil, List.append_nil] at halike
    unfold ofText
    rw [map_answered_ofMatches]
    exact isSplice_of_eq hinOrder (hsplice.text.trans halike.1)
      (hsplice.count.trans halike.2)

theorem text_apply_callouts_of_count_zero {s : Text}
    (h : (Rule.callouts.apply s).count = 0) :
    (Rule.callouts.apply s).text = s :=
  text_editOutsideCode_of_count_zero keepsUncounted_convertCallouts h

end ComponentMarkdown
