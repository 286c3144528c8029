/-
Which opening tag a closing tag belongs to. Of one kind, the tags that are
open form a stack: an opening tag is put on top, a closing tag takes off
what is on top, and nothing else touches it (`ofKind_next`). A closing tag
stays exactly if what it takes off has stayed.

Two readings of a run of tags follow. Tags in which every closing tag has
its opening tag, and the other way round, leave the stack as it was
(`ofKind_openedAfter_of_balanced`). The rear part of such a run closes at
least as often as it opens, so from an empty stack it ends with one
(`ofKind_openedAfter_of_rear`).
-/
import ComponentMarkdown.Proofs.Rule.Callouts

namespace ComponentMarkdown

-- ================================================== the stack of a kind

namespace OpenCallouts

/-- The open tags of a kind, the latest first: whether each was
converted. -/
def ofKind (kind : CalloutKind) (opened : OpenCallouts) : List Bool :=
  (opened.filter fun e => e.1 = kind).map Prod.snd

theorem ofKind_cons (kind k : CalloutKind) (converted : Bool)
    (opened : OpenCallouts) :
    ofKind kind ((k, converted) :: opened)
      = if k = kind then converted :: ofKind kind opened
        else ofKind kind opened := by
  unfold ofKind
  rw [List.filter_cons]
  by_cases hk : k = kind
  · simp [hk]
  · simp [hk]

/-- Closing a kind takes the latest tag of that kind away, and no other. -/
theorem close_eq (kind : CalloutKind) (opened : OpenCallouts) :
    (close kind opened).1 = (ofKind kind opened).head?
      ∧ ∀ k, ofKind k (close kind opened).2
        = if kind = k then (ofKind k opened).tail else ofKind k opened := by
  induction opened with
  | nil => exact ⟨rfl, fun k => by split <;> rfl⟩
  | cons e opened ih =>
    obtain ⟨k', converted⟩ := e
    obtain ⟨hfound, hrest⟩ := ih
    unfold close
    by_cases hk : k' = kind
    · rw [if_pos hk, ofKind_cons, if_pos hk]
      refine ⟨rfl, fun k => ?_⟩
      rw [ofKind_cons, hk]
      by_cases hkind : kind = k
      · rw [if_pos hkind, if_pos hkind, List.tail_cons]
      · rw [if_neg hkind, if_neg hkind]
    · rw [if_neg hk, ofKind_cons, if_neg hk]
      refine ⟨hfound, fun k => ?_⟩
      show ofKind k ((k', converted) :: (close kind opened).2) = _
      rw [ofKind_cons, ofKind_cons, hrest]
      by_cases hkind : kind = k
      · have hne : k' ≠ k := hkind ▸ hk
        rw [if_pos hkind, if_pos hkind, if_neg hne, if_neg hne]
      · rw [if_neg hkind, if_neg hkind]

end OpenCallouts

-- ============================================================== one tag

namespace CalloutTag

open OpenCallouts

variable {kind : CalloutKind} {tag : CalloutTag} {opened : OpenCallouts}

theorem opens_iff : tag.opens kind = true
    ↔ tag.closing = false ∧ tag.selfClosing = false ∧ tag.kind = kind := by
  unfold opens
  simp [and_assoc]

theorem closes_iff : tag.closes kind = true
    ↔ tag.closing = true
      ∧ (tag.attributes.trimEnd.isEmpty && !tag.selfClosing) = true
      ∧ tag.kind = kind := by
  unfold closes
  simp [and_assoc]

/-- What one tag does to the stack of a kind. -/
theorem ofKind_next (kind : CalloutKind) (tag : CalloutTag)
    (opened : OpenCallouts) :
    ofKind kind (tag.convert? opened).2
      = if tag.opens kind = true then
          tag.container?.isSome :: ofKind kind opened
        else if tag.closes kind = true then (ofKind kind opened).tail
        else ofKind kind opened := by
  cases hclosing : tag.closing with
  | true =>
    have hopens : ¬ tag.opens kind = true := by simp [opens_iff, hclosing]
    rw [convert?_of_closing hclosing, if_neg hopens]
    by_cases hplain : (tag.attributes.trimEnd.isEmpty && !tag.selfClosing)
        = true
    · have hcloses : tag.closes kind = true ↔ tag.kind = kind := by
        simp [closes_iff, hclosing, hplain]
      rw [if_pos hplain]
      simp only [hcloses]
      exact (close_eq tag.kind opened).2 kind
    · have hcloses : ¬ tag.closes kind = true := by
        rw [closes_iff]
        exact fun h => hplain h.2.1
      rw [if_neg hplain, if_neg hcloses]
  | false =>
    have hcloses : ¬ tag.closes kind = true := by simp [closes_iff, hclosing]
    rw [convert?_of_opening hclosing, if_neg hcloses]
    cases hself : tag.selfClosing with
    | true =>
      have hopens : ¬ tag.opens kind = true := by simp [opens_iff, hself]
      rw [if_neg hopens]
      rfl
    | false =>
      have hopens : tag.opens kind = true ↔ tag.kind = kind := by
        simp [opens_iff, hclosing, hself]
      simp only [Bool.false_eq_true, if_false, ofKind_cons, hopens]

/-- An opening tag is converted if it has a container. -/
theorem convert?_of_opens (h : tag.opens kind = true) :
    (tag.convert? opened).1 = tag.container? := by
  obtain ⟨hclosing, hself, -⟩ := opens_iff.1 h
  rw [convert?_of_opening hclosing, hself]
  cases tag.container? with
  | none => rfl
  | some new => exact congrArg some (List.append_nil new)

/-- A closing tag is converted unless the tag it closes was not. -/
theorem convert?_of_closes (h : tag.closes kind = true) :
    (tag.convert? opened).1
      = if (ofKind kind opened).head? = some false then none
        else some containerEnd := by
  obtain ⟨hclosing, hplain, rfl⟩ := closes_iff.1 h
  rw [convert?_of_closing hclosing, if_pos hplain,
    (close_eq tag.kind opened).1]

-- ============================================================= all tags

/-- What is open behind some tags. -/
def openedAfter (tags : List CalloutTag) (opened : OpenCallouts) :
    OpenCallouts :=
  tags.foldl (fun opened tag => (tag.convert? opened).2) opened

theorem openedAfter_append (a b : List CalloutTag) (opened : OpenCallouts) :
    openedAfter (a ++ b) opened = openedAfter b (openedAfter a opened) :=
  List.foldl_append

/-- Whether each tag of a kind that closes has one that it closes, and the
other way round. -/
def Balanced (kind : CalloutKind) (tags : List CalloutTag) : Prop :=
  (∀ before, before <+: tags →
      before.countP (closes kind) ≤ before.countP (opens kind))
    ∧ tags.countP (closes kind) = tags.countP (opens kind)

/-- Tags that never close more than they opened and `top` of the stack
leave what is below. -/
theorem ofKind_openedAfter_of_front {tags : List CalloutTag}
    {top below : List Bool} (hopened : ofKind kind opened = top ++ below)
    (h : ∀ before, before <+: tags →
      before.countP (closes kind) ≤ top.length + before.countP (opens kind)) :
    ∃ top', ofKind kind (openedAfter tags opened) = top' ++ below
      ∧ top'.length + tags.countP (closes kind)
        = top.length + tags.countP (opens kind) := by
  induction tags generalizing opened top with
  | nil => exact ⟨top, hopened, rfl⟩
  | cons tag tags ih =>
    have hnext := ofKind_next kind tag opened
    have hone := h [tag] ⟨tags, rfl⟩
    have hmore (before : List CalloutTag) (hbefore : before <+: tags) :=
      h (tag :: before) (List.cons_prefix_cons.2 ⟨rfl, hbefore⟩)
    simp only [List.countP_cons, List.countP_nil] at hone hmore ⊢
    by_cases hopens : tag.opens kind = true
    · have hcloses : ¬ tag.closes kind = true := not_closes_of_opens hopens
      rw [if_pos hopens, hopened, ← List.cons_append] at hnext
      simp only [if_pos hopens, if_neg hcloses] at hmore ⊢
      obtain ⟨top', hstack, hlength⟩ := ih hnext fun before hbefore => by
        have := hmore before hbefore
        rw [List.length_cons]
        omega
      refine ⟨top', hstack, ?_⟩
      rw [List.length_cons] at hlength
      omega
    · simp only [if_neg hopens] at hnext hone hmore ⊢
      by_cases hcloses : tag.closes kind = true
      · simp only [if_pos hcloses] at hnext hone hmore ⊢
        obtain ⟨found, top, rfl⟩ : ∃ found rest, top = found :: rest := by
          refine List.exists_cons_of_ne_nil ?_
          rintro rfl
          rw [List.length_nil] at hone
          omega
        rw [hopened, List.cons_append, List.tail_cons] at hnext
        simp only [List.length_cons] at hmore ⊢
        obtain ⟨top', hstack, hlength⟩ := ih hnext fun before hbefore => by
          have := hmore before hbefore
          omega
        exact ⟨top', hstack, by omega⟩
      · simp only [if_neg hcloses] at hnext hmore ⊢
        rw [hopened] at hnext
        obtain ⟨top', hstack, hlength⟩ := ih hnext fun before hbefore => by
          have := hmore before hbefore
          omega
        exact ⟨top', hstack, by omega⟩

/-- Balanced tags leave the stack as it was. -/
theorem ofKind_openedAfter_of_balanced {tags : List CalloutTag}
    (h : Balanced kind tags) (opened : OpenCallouts) :
    ofKind kind (openedAfter tags opened) = ofKind kind opened := by
  obtain ⟨hfront, htotal⟩ := h
  have hopened : ofKind kind opened = [] ++ ofKind kind opened := rfl
  obtain ⟨top, hstack, hlength⟩ :=
    ofKind_openedAfter_of_front hopened fun before hbefore => by
      have := hfront before hbefore
      omega
  have htop : top = [] := List.length_eq_zero_iff.1 (by
    rw [List.length_nil] at hlength
    omega)
  rw [hstack, htop, List.nil_append]

/-- Tags that from any point on close at least as often as they open take
off the stack what they close more. -/
theorem length_ofKind_openedAfter_le {tags : List CalloutTag}
    (h : ∀ after, after <:+ tags →
      after.countP (opens kind) ≤ after.countP (closes kind))
    (opened : OpenCallouts) :
    (ofKind kind (openedAfter tags opened)).length
      ≤ (ofKind kind opened).length
        - (tags.countP (closes kind) - tags.countP (opens kind)) := by
  induction tags generalizing opened with
  | nil => exact Nat.le_refl _
  | cons tag tags ih =>
    have hall := h (tag :: tags) (List.suffix_refl _)
    have hrest := h tags (List.suffix_cons tag tags)
    have hih := ih (fun after hafter =>
      h after (hafter.trans (List.suffix_cons tag tags)))
      (tag.convert? opened).2
    have hnext := congrArg List.length (ofKind_next kind tag opened)
    simp only [List.countP_cons] at hall ⊢
    change (ofKind kind (openedAfter tags (tag.convert? opened).2)).length ≤ _
    by_cases hopens : tag.opens kind = true
    · have hcloses : ¬ tag.closes kind = true := not_closes_of_opens hopens
      simp only [if_pos hopens, if_neg hcloses, List.length_cons]
        at hnext hall ⊢
      omega
    · by_cases hcloses : tag.closes kind = true
      · simp only [if_neg hopens, if_pos hcloses, List.length_tail]
          at hnext hall ⊢
        omega
      · simp only [if_neg hopens, if_neg hcloses] at hnext hall ⊢
        omega

/-- The rear part of balanced tags ends with nothing open, if nothing was
open before it. -/
theorem ofKind_openedAfter_of_rear {front rear : List CalloutTag}
    (h : Balanced kind (front ++ rear)) :
    ofKind kind (openedAfter rear []) = [] := by
  have hrear : ∀ after, after <:+ rear →
      after.countP (opens kind) ≤ after.countP (closes kind) := by
    intro after hafter
    obtain ⟨before, rfl⟩ := hafter
    have hfront := h.1 (front ++ before)
      ⟨after, by rw [List.append_assoc]⟩
    have htotal := h.2
    simp only [List.countP_append] at hfront htotal
    omega
  have hlength := length_ofKind_openedAfter_le hrear []
  have hnil : (ofKind kind []).length = 0 := rfl
  exact List.length_eq_zero_iff.1 (by omega)

end CalloutTag

end ComponentMarkdown
