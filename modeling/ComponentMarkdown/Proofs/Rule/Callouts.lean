/-
When callouts stay. The rule leaves a text alone exactly if the class of
every opening tag is unmergeable, and no kind is closed more often than it
was opened up to any point (`count_apply_callouts_eq_zero_iff`).

# The invariant

The rule remembers which tags are open and whether each was converted.
While nothing is converted, all of them were not (`Untouched`), and of
each kind as many are open as were opened and not closed: one tag changes
the number by what it opens and closes (`untouched_next`). A closing tag
stays if it finds an open tag of its kind, so the tags seen so far hold
fewer that close the kind than open it.
-/
import ComponentMarkdown.Proofs.Markup.CodeSpan
import ComponentMarkdown.Rule.Callouts

namespace ComponentMarkdown

open Markup

-- =========================================================== open tags

namespace OpenCallouts

/-- How many tags of a kind are open. -/
def depth (kind : CalloutKind) (opened : OpenCallouts) : Nat :=
  opened.countP fun e => e.1 = kind

/-- Whether no open tag was converted. -/
def Untouched (opened : OpenCallouts) : Prop :=
  ∀ e ∈ opened, e.2 = false

/-- A callout on top counts for its kind. -/
theorem depth_cons (kind k : CalloutKind) (converted : Bool)
    (opened : OpenCallouts) :
    depth kind ((k, converted) :: opened)
      = depth kind opened + if k = kind then 1 else 0 := by
  unfold depth
  rw [List.countP_cons]
  simp

/-- Closing a kind that is not open closes nothing. -/
theorem close_of_depth_zero {kind : CalloutKind} {opened : OpenCallouts}
    (h : depth kind opened = 0) : close kind opened = (none, opened) := by
  induction opened with
  | nil => rfl
  | cons e opened ih =>
    obtain ⟨k, converted⟩ := e
    rw [depth_cons] at h
    have hk : k ≠ kind := by
      intro hk
      rw [if_pos hk] at h
      omega
    have hrest : depth kind opened = 0 := by omega
    unfold close
    rw [if_neg hk, ih hrest]

/-- Closing a kind that is open takes one tag of it away, and no other. -/
theorem close_of_depth_pos {kind : CalloutKind} {opened : OpenCallouts}
    (hopened : Untouched opened) (h : 0 < depth kind opened) :
    (close kind opened).1 = some false
      ∧ Untouched (close kind opened).2
      ∧ ∀ k, depth k (close kind opened).2 + (if kind = k then 1 else 0)
        = depth k opened := by
  induction opened with
  | nil => cases h
  | cons e opened ih =>
    obtain ⟨k', converted⟩ := e
    obtain ⟨hconverted, hrest⟩ := List.forall_mem_cons.1 hopened
    by_cases hk : k' = kind
    · unfold close
      rw [if_pos hk]
      refine ⟨congrArg some hconverted, hrest, fun k => ?_⟩
      rw [depth_cons, hk]
    · rw [depth_cons, if_neg hk] at h
      obtain ⟨hfound, huntouched, hdepth⟩ := ih hrest h
      unfold close
      rw [if_neg hk]
      refine ⟨hfound, List.forall_mem_cons.2 ⟨hconverted, huntouched⟩, ?_⟩
      intro k
      have := hdepth k
      show depth k ((k', converted) :: (close kind opened).2) + _ = _
      rw [depth_cons, depth_cons]
      omega

end OpenCallouts

-- ============================================================ one tag

namespace CalloutTag

open OpenCallouts

/-- Whether the tag opens a callout of a kind that has to be closed. -/
def opens (kind : CalloutKind) (tag : CalloutTag) : Bool :=
  !tag.closing && !tag.selfClosing && tag.kind = kind

/-- Whether the tag closes a callout of a kind. -/
def closes (kind : CalloutKind) (tag : CalloutTag) : Bool :=
  tag.closing && (tag.attributes.trimEnd.isEmpty && !tag.selfClosing)
    && tag.kind = kind

/-- No tag both closes and opens. -/
theorem opens_of_closes {kind : CalloutKind} {tag : CalloutTag}
    (h : tag.closes kind = true) (k : CalloutKind) :
    tag.opens k = false := by
  unfold closes at h
  unfold opens
  cases hclosing : tag.closing with
  | true => rfl
  | false =>
    rw [hclosing] at h
    cases h

/-- No tag both opens and closes a kind. -/
theorem not_closes_of_opens {kind k : CalloutKind} {tag : CalloutTag}
    (h : tag.opens k = true) : ¬ tag.closes kind = true := by
  intro hcloses
  rw [opens_of_closes hcloses k] at h
  cases h

/-- Whether the tag's class cannot be merged into that of a container. -/
def Unmergeable (tag : CalloutTag) : Prop :=
  ClassAttribute.ofAttributes tag.attributes.trimEnd = .unmergeable

/-- A tag has no container exactly if its class cannot be merged. -/
theorem container?_eq_none_iff {tag : CalloutTag} :
    tag.container? = none ↔ tag.Unmergeable := by
  unfold container? Unmergeable
  dsimp only
  split
  · rename_i habsent
    rw [habsent]
    exact iff_of_false (by simp) (by simp)
  · rename_i hstatic
    rw [hstatic]
    exact iff_of_false (by simp) (by simp)
  · rename_i hunmergeable
    exact iff_of_true rfl hunmergeable

/-- What becomes of a closing tag, and what is open behind it. -/
theorem convert?_of_closing {tag : CalloutTag} (h : tag.closing = true)
    (opened : OpenCallouts) :
    tag.convert? opened
      = if tag.attributes.trimEnd.isEmpty && !tag.selfClosing then
          (if (close tag.kind opened).1 = some false then none
            else some containerEnd, (close tag.kind opened).2)
        else (none, opened) := by
  unfold convert?
  rw [if_pos h]
  split
  · split
    · rename_i heq
      rw [heq, if_pos rfl]
    · rename_i hnot heq
      rw [heq, if_neg hnot]
  · rfl

/-- What becomes of an opening tag, and what is open behind it. -/
theorem convert?_of_opening {tag : CalloutTag} (h : tag.closing = false)
    (opened : OpenCallouts) :
    tag.convert? opened
      = (tag.container?.map
          (· ++ if tag.selfClosing then containerEnd else []),
        if tag.selfClosing then opened
        else (tag.kind, tag.container?.isSome) :: opened) := by
  unfold convert?
  rw [h, if_neg Bool.false_ne_true]
  cases tag.selfClosing with
  | true => rfl
  | false =>
    refine congrArg (·, _) ?_
    cases tag.container? with
    | none => rfl
    | some new => exact congrArg some (List.append_nil new).symm

/-- A tag stays if its class cannot be merged, and a closing tag if it
closes one that stayed. -/
theorem convert?_eq_none_iff {tag : CalloutTag} {opened : OpenCallouts}
    (hopened : Untouched opened) :
    (tag.convert? opened).1 = none
      ↔ (tag.closing = false → tag.Unmergeable)
        ∧ (tag.closes tag.kind = true → 0 < depth tag.kind opened) := by
  rw [← container?_eq_none_iff]
  cases hclosing : tag.closing with
  | true =>
    rw [convert?_of_closing hclosing]
    unfold closes
    by_cases hplain : (tag.attributes.trimEnd.isEmpty && !tag.selfClosing)
        = true
    · rw [if_pos hplain]
      rcases Nat.eq_zero_or_pos (depth tag.kind opened) with hzero | hpos
      · rw [close_of_depth_zero hzero, hzero]
        simp [hclosing, hplain]
      · obtain ⟨hfound, -, -⟩ := close_of_depth_pos hopened hpos
        simp [hfound, hpos]
    · rw [if_neg hplain]
      simp [hplain]
  | false =>
    rw [convert?_of_opening hclosing, Option.map_eq_none_iff]
    unfold closes
    simp [hclosing]

/-- A tag that stays leaves no converted tag open, and of each kind as many
as it opens more and closes less. -/
theorem untouched_next {tag : CalloutTag} {opened : OpenCallouts}
    (hopened : Untouched opened) (h : (tag.convert? opened).1 = none) :
    Untouched (tag.convert? opened).2
      ∧ ∀ k, depth k (tag.convert? opened).2
          + (if tag.closes k = true then 1 else 0)
        = depth k opened + if tag.opens k = true then 1 else 0 := by
  obtain ⟨hclass, hdepth⟩ := (convert?_eq_none_iff hopened).1 h
  unfold closes opens at *
  cases hclosing : tag.closing with
  | true =>
    rw [convert?_of_closing hclosing]
    by_cases hplain : (tag.attributes.trimEnd.isEmpty && !tag.selfClosing)
        = true
    · have hpos : 0 < depth tag.kind opened := by
        apply hdepth
        simp [hclosing, hplain]
      obtain ⟨-, huntouched, hcount⟩ := close_of_depth_pos hopened hpos
      rw [if_pos hplain]
      refine ⟨huntouched, fun k => ?_⟩
      simpa [hplain] using hcount k
    · rw [if_neg hplain]
      refine ⟨hopened, fun k => ?_⟩
      simp [hplain]
  | false =>
    have hnone := container?_eq_none_iff.2 (hclass hclosing)
    rw [convert?_of_opening hclosing, hnone]
    cases hself : tag.selfClosing with
    | true => exact ⟨hopened, fun k => by simp⟩
    | false =>
      refine ⟨List.forall_mem_cons.2 ⟨rfl, hopened⟩, fun k => ?_⟩
      show depth k ((tag.kind, false) :: opened) + _ = _
      rw [depth_cons]
      simp

-- ============================================================ all tags

/-- Whether tags stay, each with what the tags before it leave open. -/
def Stay : List CalloutTag → OpenCallouts → Prop
  | [], _ => True
  | tag :: tags, opened =>
    (tag.convert? opened).1 = none ∧ Stay tags (tag.convert? opened).2

/-- Tags stay exactly if none can be merged and none closes more than is
open. -/
theorem stay_iff {tags : List CalloutTag} {opened : OpenCallouts}
    (hopened : Untouched opened) :
    Stay tags opened
      ↔ (∀ tag ∈ tags, tag.closing = false → tag.Unmergeable)
        ∧ ∀ k before, before <+: tags →
          before.countP (closes k)
            ≤ before.countP (opens k) + depth k opened := by
  induction tags generalizing opened with
  | nil =>
    refine iff_of_true trivial ⟨fun tag htag => ?_, ?_⟩
    · cases htag
    · intro k before hbefore
      rw [List.prefix_nil.1 hbefore]
      exact Nat.zero_le _
  | cons tag tags ih =>
    constructor
    · intro hstay
      obtain ⟨htag, htags⟩ := hstay
      obtain ⟨huntouched, hnext⟩ := untouched_next hopened htag
      obtain ⟨hclass, hcount⟩ := (ih huntouched).1 htags
      have hthis := ((convert?_eq_none_iff hopened).1 htag).1
      refine ⟨List.forall_mem_cons.2 ⟨hthis, hclass⟩, ?_⟩
      intro k before hbefore
      rcases List.prefix_cons_iff.1 hbefore with rfl | ⟨more, rfl, hmore⟩
      · exact Nat.zero_le _
      · have := hcount k more hmore
        have := hnext k
        rw [List.countP_cons, List.countP_cons]
        omega
    · intro h
      obtain ⟨hclass, hcount⟩ := h
      obtain ⟨hthis, hrest⟩ := List.forall_mem_cons.1 hclass
      have htag : (tag.convert? opened).1 = none := by
        rw [convert?_eq_none_iff hopened]
        refine ⟨hthis, fun hcloses => ?_⟩
        have hone := hcount tag.kind [tag] ⟨tags, rfl⟩
        have hopens := opens_of_closes hcloses tag.kind
        rw [List.countP_cons, List.countP_cons, hcloses, hopens,
          List.countP_nil, List.countP_nil, if_pos rfl,
          if_neg Bool.false_ne_true] at hone
        omega
      obtain ⟨huntouched, hnext⟩ := untouched_next hopened htag
      refine ⟨htag, (ih huntouched).2 ⟨hrest, fun k before hbefore => ?_⟩⟩
      have hmore := hcount k (tag :: before)
        (List.cons_prefix_cons.2 ⟨rfl, hbefore⟩)
      have := hnext k
      rw [List.countP_cons, List.countP_cons] at hmore
      omega

end CalloutTag

-- ======================================================= the whole rule

/-- The callout tags of a text outside its code spans, in order. -/
def calloutTagsOf (s : Text) : List CalloutTag :=
  (CodeSplit.ofText s).gaps.flatMap fun gap =>
    (CalloutTag.scanner.hits gap).map Hit.value

/-- How the rule edits one tag. -/
def calloutEdit (h : Hit CalloutTag) (opened : OpenCallouts) :
    Edited × OpenCallouts :=
  (Scanner.substitution h (h.value.convert? opened).1,
    (h.value.convert? opened).2)

/-- The tags of a text are all left alone exactly if they stay. -/
theorem quiet_calloutEdit_iff {hits : List (Hit CalloutTag)}
    {opened : OpenCallouts} :
    Scanner.Quiet calloutEdit hits opened
      ↔ CalloutTag.Stay (hits.map Hit.value) opened := by
  induction hits generalizing opened with
  | nil => exact Iff.rfl
  | cons h hits ih =>
    rw [Scanner.Quiet, List.map_cons, CalloutTag.Stay, ih]
    unfold calloutEdit
    rw [Scanner.count_substitution_eq_zero_iff]

/-- The conversion of callouts gives a text back in which it converts
nothing. -/
theorem keepsUncounted_convertCallouts : KeepsUncounted convertCallouts :=
  fun gap opened =>
    CalloutTag.scanner.spliceFrom_text_of_count_zero _ opened gap

/-- The rule counts nothing exactly if no class of an opening tag can be
merged and, up to any point of the text, no kind is closed more often than
opened. -/
theorem count_apply_callouts_eq_zero_iff {s : Text} :
    (Rule.callouts.apply s).count = 0
      ↔ (∀ tag ∈ calloutTagsOf s, tag.closing = false → tag.Unmergeable)
        ∧ ∀ k before, before <+: calloutTagsOf s →
          before.countP (CalloutTag.closes k)
            ≤ before.countP (CalloutTag.opens k) := by
  show (editOutsideCode (fun gap opened =>
    CalloutTag.scanner.spliceFrom calloutEdit opened gap) [] s).1.count = 0 ↔ _
  have htags : calloutTagsOf s
      = ((CodeSplit.ofText s).gaps.flatMap CalloutTag.scanner.hits).map
        Hit.value := by
    unfold calloutTagsOf
    rw [List.map_flatMap]
  rw [count_editOutsideCode_eq_zero_iff, quiet_calloutEdit_iff, htags,
    CalloutTag.stay_iff (fun e he => by cases he)]
  rfl

end ComponentMarkdown
