/-
Which closing tags stay. Of each kind by itself, the opening tags that wait
for their closing tag form a stack of sites (`waiting`); the top of it is
the partner of the next closing tag of the kind. A closing tag stays exactly
if its partner stayed, or if it carries attributes or a slash and so closes
nothing (`partners_apply_callouts`).

# The simulation

The rule keeps one list for all kinds, and takes out of its middle what a
closing tag closes. Of that list, the entries of a kind say of each waiting
site of the kind whether it was rewritten, in the same order
(`Converted.ofKind_openedAfter`). One tag keeps the two in step, by what it
does to each: `CalloutTag.ofKind_next` and `waiting_concat`.

# Counting

While no kind is closed more often than opened, every closing tag finds its
partner, so the rewritten opening tags of a kind are those whose closing tag
was rewritten and those that still wait (`Converted.countP_waiting`).
Balanced tags leave none waiting.
-/
import ComponentMarkdown.Proofs.Rule.CalloutSites
import Mathlib.Algebra.GroupWithZero.Nat
import Mathlib.Data.List.Induction

namespace ComponentMarkdown

namespace CalloutSite

open OpenCallouts CalloutTag

-- ====================================================== waiting sites

/-- Whether a site opens or closes a callout of a kind. -/
def concerns (kind : CalloutKind) (site : CalloutSite) : Bool :=
  site.tag.opens kind || site.tag.closes kind

/-- What a site does to the waiting opening tags of a kind, the latest
first: an opening tag of the kind joins them, and a closing tag of the kind
takes the latest. -/
def await (kind : CalloutKind) (waiting : List CalloutSite)
    (site : CalloutSite) : List CalloutSite :=
  if site.tag.opens kind then site :: waiting
  else if site.tag.closes kind then waiting.tail
  else waiting

/-- The opening tags of a kind that wait behind some sites, the latest
first. -/
def waiting (kind : CalloutKind) (sites : List CalloutSite) :
    List CalloutSite :=
  sites.foldl (await kind) []

/-- The opening tag that a closing tag of a kind behind these sites
closes. -/
def partner? (kind : CalloutKind) (before : List CalloutSite) :
    Option CalloutSite :=
  (waiting kind before).head?

theorem waiting_concat (kind : CalloutKind) (sites : List CalloutSite)
    (site : CalloutSite) :
    waiting kind (sites ++ [site]) = await kind (waiting kind sites) site :=
  List.foldl_append

/-- Only what opens or closes the kind plays a part. -/
theorem waiting_filter (kind : CalloutKind) (sites : List CalloutSite) :
    waiting kind (sites.filter (concerns kind)) = waiting kind sites := by
  induction sites using List.reverseRecOn with
  | nil => rfl
  | append_singleton sites site ih =>
    rw [List.filter_append, waiting_concat, ← ih]
    by_cases hsite : concerns kind site = true
    · rw [List.filter_cons_of_pos hsite, List.filter_nil, waiting_concat]
    · rw [List.filter_cons_of_neg hsite, List.filter_nil, List.append_nil]
      unfold concerns at hsite
      rw [Bool.or_eq_true, not_or] at hsite
      unfold await
      rw [if_neg hsite.1, if_neg hsite.2]

-- ====================================================== the simulation

/-- Each site becomes what its tag becomes behind the tags before it. -/
def Converted (sites : List CalloutSite) : Prop :=
  ∀ before site after, sites = before ++ site :: after →
    site.new? = (site.tag.convert? (openedAfter (before.map tag) [])).1

theorem converted_ofText (s : Text) : Converted (ofText s) :=
  fun _ _ _ h => new?_of_ofMatches h

variable {kind : CalloutKind} {sites before after : List CalloutSite}
  {site : CalloutSite}

theorem Converted.left (h : Converted (sites ++ after)) :
    Converted sites := by
  rintro before site rest rfl
  exact h before site (rest ++ after) (by simp)

/-- What is remembered of a kind says of the waiting sites whether they were
rewritten. -/
theorem Converted.ofKind_openedAfter (h : Converted sites) :
    ofKind kind (openedAfter (sites.map tag) [])
      = (waiting kind sites).map fun site => site.new?.isSome := by
  induction sites using List.reverseRecOn with
  | nil => rfl
  | append_singleton sites site ih =>
    have hsites := ih h.left
    have hsite := h sites site [] rfl
    rw [List.map_append, List.map_singleton, openedAfter_append,
      waiting_concat]
    change ofKind kind (site.tag.convert?
      (openedAfter (sites.map tag) [])).2 = _
    rw [ofKind_next, hsites]
    unfold await
    split
    · rename_i hopens
      rw [convert?_of_opens hopens] at hsite
      rw [List.map_cons, hsite]
    · split
      · exact List.map_tail.symm
      · rfl

/-- A closing tag stays if its partner did. -/
theorem Converted.new?_of_closes (h : Converted (before ++ site :: after))
    (hcloses : site.tag.closes kind = true) :
    site.new?
      = if (partner? kind before).map (fun site => site.new?.isSome)
          = some false then none
        else some containerEnd := by
  have hbefore : Converted before := h.left
  rw [h before site after rfl, convert?_of_closes hcloses,
    hbefore.ofKind_openedAfter, List.head?_map]
  rfl

/-- A closing tag with attributes or a slash stays. -/
theorem Converted.new?_of_not_closes
    (h : Converted (before ++ site :: after))
    (hclosing : site.tag.closing = true)
    (hmore : site.tag.attributes.trimEnd ≠ []
      ∨ site.tag.selfClosing = true) :
    site.new? = none := by
  rw [h before site after rfl, CalloutTag.convert?_of_closing hclosing,
    if_neg]
  rcases hmore with hmore | hmore
  · simp [hmore]
  · simp [hmore]

theorem Converted.new?_eq_none_iff (h : Converted (before ++ site :: after))
    (hcloses : site.tag.closes kind = true) :
    site.new? = none
      ↔ ∃ partner ∈ partner? kind before, partner.new? = none := by
  rw [h.new?_of_closes hcloses]
  cases partner? kind before with
  | none => simp
  | some partner => cases hnew : partner.new? <;> simp [hnew]

-- ============================================================ counting

/-- Up to any point, a kind is opened at least as often as closed. -/
def Nested (kind : CalloutKind) (sites : List CalloutSite) : Prop :=
  ∀ before, before <+: sites →
    before.countP (fun site => site.tag.closes kind)
      ≤ before.countP (fun site => site.tag.opens kind)

theorem Nested.left (h : Nested kind (sites ++ after)) :
    Nested kind sites :=
  fun before hbefore => h before (hbefore.trans (List.prefix_append _ _))

/-- The waiting sites are those opened and not closed; and among them wait
the rewritten ones that no rewritten site closed. -/
theorem Converted.countP_waiting (h : Converted sites)
    (hnested : Nested kind sites) :
    (waiting kind sites).length
          + sites.countP (fun site => site.tag.closes kind)
        = sites.countP (fun site => site.tag.opens kind)
      ∧ (waiting kind sites).countP (fun site => site.new?.isSome)
          + sites.countP
            (fun site => site.tag.closes kind && site.new?.isSome)
        = sites.countP
            (fun site => site.tag.opens kind && site.new?.isSome) := by
  induction sites using List.reverseRecOn with
  | nil => exact ⟨rfl, rfl⟩
  | append_singleton sites site ih =>
    obtain ⟨hlength, hcount⟩ := ih h.left hnested.left
    have hall := hnested _ (List.prefix_refl _)
    simp only [waiting_concat, await, List.countP_append,
      List.countP_singleton] at hall ⊢
    by_cases hopens : site.tag.opens kind = true
    · have hcloses : site.tag.closes kind = false :=
        Bool.eq_false_iff.2 (not_closes_of_opens hopens)
      simp only [hopens, hcloses, if_true, List.length_cons,
        List.countP_cons, Bool.true_and, Bool.false_and, Bool.false_eq_true,
        if_false]
      omega
    · rw [Bool.not_eq_true] at hopens
      by_cases hcloses : site.tag.closes kind = true
      · simp only [hopens, hcloses, if_true, Bool.false_eq_true, if_false]
          at hall ⊢
        obtain ⟨partner, rest, hwaiting⟩ : ∃ partner rest,
            waiting kind sites = partner :: rest := by
          refine List.exists_cons_of_ne_nil fun hnil => ?_
          rw [hnil, List.length_nil] at hlength
          omega
        have hnew : site.new?.isSome = partner.new?.isSome := by
          rw [Bool.eq_iff_iff, ← not_iff_not, Bool.not_eq_true,
            Bool.not_eq_true, Option.isSome_eq_false_iff,
            Option.isSome_eq_false_iff, Option.isNone_iff_eq_none,
            Option.isNone_iff_eq_none, h.new?_eq_none_iff hcloses]
          unfold partner?
          rw [hwaiting]
          simp
        rw [hwaiting, List.length_cons] at hlength
        rw [hwaiting, List.countP_cons] at hcount
        rw [hwaiting, hnew, List.tail_cons]
        simp only [Bool.true_and, Bool.false_and, Bool.false_eq_true,
          if_false]
        omega
      · rw [Bool.not_eq_true] at hcloses
        simp only [hopens, hcloses, Bool.false_and, Bool.false_eq_true,
          if_false, Nat.add_zero]
        exact ⟨hlength, hcount⟩

/-- Of a balanced kind, as many closing tags as opening tags are
rewritten. -/
theorem Converted.countP_of_balanced (h : Converted sites)
    (hbalanced : Balanced kind (sites.map tag)) :
    sites.countP (fun site => site.tag.opens kind && site.new?.isSome)
      = sites.countP
          (fun site => site.tag.closes kind && site.new?.isSome) := by
  obtain ⟨hfront, htotal⟩ := hbalanced
  have hnested : Nested kind sites := by
    intro before hbefore
    have hle := hfront (before.map tag) (hbefore.map tag)
    rw [List.countP_map, List.countP_map] at hle
    exact hle
  obtain ⟨hlength, hcount⟩ := h.countP_waiting hnested
  rw [List.countP_map, List.countP_map] at htotal
  change sites.countP (fun site => site.tag.closes kind)
    = sites.countP (fun site => site.tag.opens kind) at htotal
  have hnil : waiting kind sites = [] :=
    List.length_eq_zero_iff.1 (by omega)
  rw [hnil, List.countP_nil, Nat.zero_add] at hcount
  exact hcount.symm

/-- What holds of sites of any kind is counted kind by kind. -/
theorem countP_eq_sum (p : CalloutSite → Bool) (sites : List CalloutSite) :
    sites.countP p
      = (CalloutKind.all.map fun kind =>
          sites.countP fun site => p site && site.tag.kind = kind).sum := by
  induction sites with
  | nil => rfl
  | cons site sites ih =>
    simp only [List.countP_cons, ih, CalloutKind.all, List.map_cons,
      List.map_nil, List.sum_cons, List.sum_nil]
    cases hp : p site with
    | false => simp
    | true => cases site.tag.kind <;> simp <;> omega

/-- Where every kind is balanced, as many closing tags as opening tags that
have to be closed are rewritten. -/
theorem Converted.countP_eq (h : Converted sites)
    (hbalanced : ∀ kind, Balanced kind (sites.map tag)) :
    sites.countP (fun site => !site.tag.closing && !site.tag.selfClosing
        && site.new?.isSome)
      = sites.countP (fun site => site.tag.closing && site.new?.isSome) := by
  have hopened (kind : CalloutKind) (site : CalloutSite) :
      (!site.tag.closing && !site.tag.selfClosing && site.new?.isSome
          && decide (site.tag.kind = kind))
        = (site.tag.opens kind && site.new?.isSome) :=
    Bool.and_right_comm _ _ _
  have hclosed (kind : CalloutKind) (site : CalloutSite)
      (hsite : site ∈ sites) :
      (site.tag.closing && site.new?.isSome
          && decide (site.tag.kind = kind)) = true
        ↔ (site.tag.closes kind && site.new?.isSome) = true := by
    obtain ⟨before, after, rfl⟩ := List.append_of_mem hsite
    unfold CalloutTag.closes
    by_cases hmore : site.tag.attributes.trimEnd = []
        ∧ site.tag.selfClosing = false
    · simp [hmore.1, hmore.2, and_right_comm]
    · have hnone (hclosing : site.tag.closing = true) : site.new? = none := by
        refine h.new?_of_not_closes hclosing ?_
        rw [not_and_or, Bool.not_eq_false] at hmore
        exact hmore
      cases hclosing : site.tag.closing with
      | false => simp
      | true => simp [hnone hclosing]
  rw [countP_eq_sum, countP_eq_sum]
  refine congrArg List.sum (List.map_congr_left fun kind _ => ?_)
  simp only [hopened]
  rw [h.countP_of_balanced (hbalanced kind), List.countP_congr (hclosed kind)]

end CalloutSite

-- ======================================================= the whole rule

open CalloutSite

/-- The rule puts what each callout tag outside the code spans becomes in
the place of the tag, and touches nothing else.
A closing tag with attributes or a slash stays; any other stays exactly if
the opening tag it closes did, and becomes `</div>` if not. What a closing
tag closes is decided by the tags of its kind that open or close alone. So
where every kind is balanced, as many closing tags as opening tags that
have to be closed are rewritten. -/
theorem partners_apply_callouts (s : Text) :
    CalloutsAnswered s (ofText s) (Rule.callouts.apply s)
      ∧ (ofText s).map tag = calloutTagsOf s
      ∧ (∀ before site after, ofText s = before ++ site :: after →
        site.tag.closing = true →
          (site.tag.attributes.trimEnd ≠ [] ∨ site.tag.selfClosing = true →
            site.new? = none)
          ∧ (site.tag.attributes.trimEnd = [] →
            site.tag.selfClosing = false →
              (site.new? = none ↔ ∃ partner ∈ partner? site.tag.kind before,
                partner.new? = none)
              ∧ (site.new? ≠ none → site.new? = some "</div>".toList)))
      ∧ (∀ kind before,
        waiting kind (before.filter (concerns kind)) = waiting kind before)
      ∧ ((∀ kind, CalloutTag.Balanced kind (calloutTagsOf s)) →
        (ofText s).countP (fun site => !site.tag.closing
            && !site.tag.selfClosing && site.new?.isSome)
          = (ofText s).countP
            (fun site => site.tag.closing && site.new?.isSome)) := by
  have hconverted := converted_ofText s
  have htags : (ofText s).map tag = calloutTagsOf s := by
    unfold ofText
    rw [map_tag_ofMatches, CalloutTag.map_value_matchesOutside]
  refine ⟨answered_apply_callouts s, htags, ?_, waiting_filter, ?_⟩
  · intro before site after hsites hclosing
    rw [hsites] at hconverted
    refine ⟨fun hmore => ?_, fun hattributes hself => ?_⟩
    · exact hconverted.new?_of_not_closes hclosing hmore
    · have hcloses : site.tag.closes site.tag.kind = true := by
        rw [CalloutTag.closes_iff]
        exact ⟨hclosing, by simp [hattributes, hself], rfl⟩
      refine ⟨hconverted.new?_eq_none_iff hcloses, fun hnew => ?_⟩
      have hresult := hconverted.new?_of_closes hcloses
      split at hresult
      · exact absurd hresult hnew
      · exact hresult
  · intro hbalanced
    rw [← htags] at hbalanced
    exact hconverted.countP_eq hbalanced

/-- A note that stays keeps the first closing tag behind it, whatever other
kinds are closed in between; the second closes nothing. -/
example : (Rule.callouts.apply
      "<Note :class=\"a\"><Tip></Note></Tip></Note>".toList).text
    = ("<Note :class=\"a\"><div class=\"callout callout-tip\">"
      ++ "</Note></div></div>").toList := by decide +kernel

end ComponentMarkdown
