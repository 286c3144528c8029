/-
Which substitutions can bring a fence to the start of a line. Nearly none:
what is put in starts with a quote, a colon, a letter or a bracket, which
ends the indentation of a line, and what was a new line before the
substitution either stays one or goes.

The exception is a class merged into a container. It leaves its place, and
what stood behind it then stands where it stood; if that was the start of a
line, a marker can come there. A tag on a single line has no such place,
and one without markers has nothing to bring there (`CalloutTag.Anchored`).
-/
import ComponentMarkdown.Proofs.Rule.Substitutions
import ComponentMarkdown.Proofs.Segment.NoFence

namespace ComponentMarkdown

open Markup

-- ========================================================== the relation

/-- A substitution brings no fence to the start of a line, and a text that
ends its last line still does. -/
def LeavesFences (_ : Nat) (old new : Text) : Prop :=
  KeepsFenceFree old new
    ∧ ∀ before, Text.endsWith '\n' before old = true →
      Text.endsWith '\n' before new = true

theorem composes_leavesFences : Composes LeavesFences where
  refl s := ⟨.refl s, fun _ => id⟩
  append {_ _ a a' b b'} ha hb := by
    refine ⟨ha.1.append hb.1, fun before h => ?_⟩
    rw [Text.endsWith_append] at h ⊢
    exact Text.endsWith_mono (ha.2 before) (hb.2 _ h)
  trans hab hbc :=
    ⟨hab.1.trans hbc.1, fun before h => hbc.2 before (hab.2 before h)⟩

/-- What does not end a line need not be replaced by something that
does. -/
theorem leavesFences_of_keeps {n : Nat} {old new : Text}
    (hend : Text.endsWith '\n' true old = false)
    (h : KeepsFenceFree old new) : LeavesFences n old new := by
  refine ⟨h, fun before hbefore => ?_⟩
  have htrue := Text.endsWith_mono (fun _ => rfl) hbefore (q := true)
  rw [hend] at htrue
  cases htrue

theorem backtick_not_mem_blanks {t : Text}
    (h : ∀ c ∈ t, isBlank c = true) : '\x60' ∉ t :=
  fun hmem => absurd (h _ hmem) (by decide)

-- ========================================================== inside tags

namespace BraceAttribute

/-- The template of an attribute keeps the fences. -/
theorem leavesFences_template {a : BraceAttribute} {new : Text}
    (hnew : a.template? = some new) : LeavesFences 1 a.written new := by
  have hquote (u : Text) (hu : '\x60' ∉ u) : KeepsFenceFree u ['"'] :=
    .cons (by decide) (by decide) (fun hmem => absurd hmem hu)
  rw [written_split]
  refine leavesFences_of_keeps (Text.endsWith_concat _ _ _ _) ?_
  rcases template?_cases hnew with rfl | rfl
  · obtain ⟨lead, blanks, hlead, hblanks, hvalue⟩ :=
      Text.exists_append_trim_append a.value
    have hfront : '\x60' ∉ '{' :: lead := by
      simp [backtick_not_mem_blanks hlead]
    have hback : '\x60' ∉ blanks ++ ['}'] := by
      simp [backtick_not_mem_blanks hblanks]
    have hparts := ((KeepsFenceFree.refl (a.lead :: a.name ++ ['='])).append
      (hquote ('{' :: lead) hfront)).append
      ((KeepsFenceFree.refl a.value.trim).append (hquote _ hback))
    have hold : a.lead :: (a.name ++ ['=', '{'] ++ a.value) ++ ['}']
        = a.lead :: a.name ++ ['='] ++ '{' :: lead
          ++ (a.value.trim ++ (blanks ++ ['}'])) := by
      conv => lhs; rw [hvalue]
      simp
    rw [hold]
    simpa using hparts
  · have hcolon : KeepsFenceFree [] [':'] :=
      .cons (by decide) (by decide) id
    have hparts := ((KeepsFenceFree.refl [a.lead]).append hcolon).append
      (((KeepsFenceFree.refl (a.name ++ ['='])).append
        (hquote ['{'] (by decide))).append
      ((KeepsFenceFree.refl a.value).append (hquote ['}'] (by decide))))
    simpa using hparts

end BraceAttribute

namespace MixedCaseName

/-- A lowered name keeps the fences. -/
theorem leavesFences_lowered {m : MixedCaseName} (hname : m.name ∈ known) :
    LeavesFences 1 (m.lead ++ m.name) m.lowered := by
  have hall : ∀ name ∈ known, name ≠ [] ∧ '\x60' ∉ name
      ∧ (∀ c ∈ name.asciiLower, Fence.endsRun c = true ∧ c ≠ '\n')
      ∧ ∀ before, Text.endsWith '\n' before name = false := by decide
  obtain ⟨hne, htick, hlower, hend⟩ := hall m.name hname
  have hkeeps : KeepsFenceFree m.name m.name.asciiLower := by
    obtain ⟨c, rest, hc⟩ : ∃ c rest, m.name.asciiLower = c :: rest :=
      List.exists_cons_of_ne_nil (by simpa [Text.asciiLower] using hne)
    rw [hc] at hlower ⊢
    refine .cons (hlower c List.mem_cons_self).1 (fun hmem => ?_)
      (fun hmem => absurd hmem htick)
    exact (hlower _ hmem).2 rfl
  refine leavesFences_of_keeps ?_ ((KeepsFenceFree.refl m.lead).append hkeeps)
  rw [Text.endsWith_append, hend]

end MixedCaseName

-- ============================================================== iframes

/-- An iframe that is closed keeps the fences. -/
theorem SelfClosingIframe.leavesFences_expanded {attributes blanks : Text}
    (hblanks : ∀ c ∈ blanks, isBlank c = true) :
    LeavesFences 1 (opening ++ attributes ++ (blanks ++ ['/', '>']))
      (expanded attributes) := by
  obtain ⟨trimmed, htrimmed, ha⟩ := Text.exists_trimEnd_append attributes
  have hend : '\x60' ∉ trimmed ++ (blanks ++ ['/', '>']) := by
    simp [backtick_not_mem_blanks hblanks, backtick_not_mem_blanks htrimmed]
  have hclosed : KeepsFenceFree (trimmed ++ (blanks ++ ['/', '>']))
      ('>' :: "</iframe>".toList) :=
    .cons (by decide) (by decide) (fun hmem => absurd hmem hend)
  have hparts := (KeepsFenceFree.refl (opening ++ attributes.trimEnd)).append
    hclosed
  have hold : opening ++ attributes ++ (blanks ++ ['/', '>'])
      = opening ++ attributes.trimEnd ++ (trimmed ++ (blanks ++ ['/']))
        ++ ['>'] := by
    conv => lhs; rw [ha]
    simp
  rw [hold]
  refine leavesFences_of_keeps (Text.endsWith_concat _ _ _ _) ?_
  unfold expanded
  rw [show "></iframe>".toList = '>' :: "</iframe>".toList from rfl]
  simpa using hparts

-- ============================================================= callouts

namespace CalloutTag

/-- Whether a class that is merged cannot bring anything to the start of a
line that opens a fence there: the attributes stand on one line, or hold no
marker. -/
def Anchored (tag : CalloutTag) : Prop :=
  tag.closing = false → ∀ classes others,
    ClassAttribute.ofAttributes tag.attributes.trimEnd
      = .static classes others →
    '\n' ∉ tag.attributes ∨ '\x60' ∉ tag.attributes ∧ '~' ∉ tag.attributes

end CalloutTag

namespace CalloutKind

/-- What stands between the brackets of a container's opening tag. -/
def containerBody (k : CalloutKind) (classes others : Text) : Text :=
  "div class=\"callout ".toList ++ k.className ++ addedClasses classes
    ++ '"' :: others

theorem container_eq (k : CalloutKind) (classes others : Text) :
    k.container classes others
      = '<' :: (k.containerBody classes others ++ ['>']) := rfl

/-- The classes that are added have the characters of the given ones, blanks
apart. -/
theorem mem_addedClasses_iff {classes : Text} {c : Char}
    (hc : isBlank c = false) : c ∈ addedClasses classes ↔ c ∈ classes := by
  rw [← Text.mem_trim_iff (t := classes) hc]
  unfold addedClasses
  cases classes.trim with
  | nil => rfl
  | cons d more =>
    have hne : c ≠ ' ' := by
      rintro rfl
      cases hc
    rw [List.mem_cons, or_iff_right hne]

/-- They have no line end that is not given. -/
theorem line_of_mem_addedClasses {classes : Text}
    (h : '\n' ∈ addedClasses classes) : '\n' ∈ classes := by
  unfold addedClasses at h
  split at h
  · cases h
  · exact Text.mem_of_mem_trim ((List.mem_cons.1 h).resolve_left (by decide))

/-- A container holds new lines and markers only where its classes or the
other attributes do. -/
theorem mem_containerBody {k : CalloutKind} {classes others : Text} {c : Char}
    (hc : c = '\n' ∨ c = '\x60' ∨ c = '~')
    (h : c ∈ k.containerBody classes others) : c ∈ classes ∨ c ∈ others := by
  have hname : c ∉ "div class=\"callout ".toList ++ k.className := by
    rcases hc with rfl | rfl | rfl <;> cases k <;> decide
  have hquote : c ≠ '"' := by
    rcases hc with rfl | rfl | rfl <;> decide
  unfold containerBody at h
  rw [List.append_assoc, List.mem_append, or_iff_right hname, List.mem_append,
    List.mem_cons, or_iff_right hquote] at h
  refine h.imp_left fun hadded => ?_
  rcases hc with rfl | hc
  · exact line_of_mem_addedClasses hadded
  · refine (mem_addedClasses_iff ?_).1 hadded
    rcases hc with rfl | rfl <;> decide

end CalloutKind

namespace CalloutTag

/-- What is merged into a container stands in the attributes. -/
theorem mem_of_merges {attributes classes others : Text}
    (h : Merges attributes classes others) {c : Char}
    (hc : c ∈ classes ∨ c ∈ others) : c ∈ attributes := by
  rcases h with ⟨rfl, rfl⟩ | h
  · exact hc.resolve_left (by simp)
  · obtain ⟨before, use, after, rfl, rfl, -, value, -, rfl, hvalue⟩ :=
      ClassAttribute.written_of_static h
    rcases hc with hc | hc
    · rcases hvalue with ⟨rfl, -⟩ | ⟨lead, q, -, -, rfl⟩
      · cases hc
      · simp [hc]
    · rcases List.mem_append.1 hc with hc | hc
      · simp [hc]
      · simp [hc]

/-- No backtick is lost when a class is merged. -/
theorem backtick_of_merges {attributes classes others : Text}
    (h : ClassAttribute.ofAttributes attributes = .static classes others)
    (htick : '\x60' ∈ attributes) : '\x60' ∈ classes ∨ '\x60' ∈ others := by
  obtain ⟨before, use, after, rfl, rfl, c, value, hc, rfl, hvalue⟩ :=
    ClassAttribute.written_of_static h
  have hname : '\x60' ∉ c :: "class".toList := by
    rw [List.mem_cons, not_or]
    refine ⟨?_, by decide⟩
    rintro rfl
    cases hc
  rw [List.mem_append, List.mem_append, List.mem_append, or_iff_right hname]
    at htick
  rcases htick with (hbefore | htick) | hafter
  · exact Or.inr (List.mem_append_left _ hbefore)
  · rcases hvalue with ⟨-, rfl⟩ | ⟨lead, q, hlead, hq, rfl⟩
    · cases htick
    · have hnot : '\x60' ∉ lead := by
        intro hmem
        rcases hlead _ hmem with hd | hd <;> cases hd
      have hquote : '\x60' ≠ q := by
        rintro rfl
        cases hq
      simp [hnot, hquote] at htick
      exact Or.inl htick
  · exact Or.inr (List.mem_append_right _ hafter)

variable {tag : CalloutTag} {ending : Text}

theorem backtick_not_mem_end (hend : tag.Ends ending) : '\x60' ∉ ending := by
  rcases hend with ⟨-, rfl⟩ | ⟨-, blanks, hblanks, rfl⟩
  · decide
  · simp [backtick_not_mem_blanks hblanks]

theorem backtick_not_mem_opening (tag : CalloutTag) :
    '\x60' ∉ (if tag.closing then ['<', '/'] else ['<']) ++ tag.kind.tagName := by
  cases tag.closing <;> cases tag.kind <;> decide

/-- The backticks of a tag are those of its attributes. -/
theorem backtick_mem_written_iff (hend : tag.Ends ending) :
    '\x60' ∈ tag.written ending ↔ '\x60' ∈ tag.attributes := by
  unfold written
  rw [List.mem_append, or_iff_left (backtick_not_mem_end hend),
    List.mem_append, or_iff_right (backtick_not_mem_opening tag)]

/-- The end of a container brings no fence. -/
theorem keeps_containerEnd {old : Text} (h : '\x60' ∉ old) :
    KeepsFenceFree old containerEnd := by
  rw [show containerEnd = '<' :: "/div>".toList from rfl]
  exact .cons (by decide) (by decide) (fun hmem => absurd hmem h)

/-- A container that no class is merged into keeps the attributes of the
tag where they are. -/
theorem keeps_container_absent (hend : tag.Ends ending) :
    KeepsFenceFree (tag.written ending)
      (tag.kind.container [] tag.attributes.trimEnd) := by
  obtain ⟨trimmed, htrimmed, ha⟩ := Text.exists_trimEnd_append tag.attributes
  have hfront : KeepsFenceFree
      ((if tag.closing then ['<', '/'] else ['<']) ++ tag.kind.tagName)
      ('<' :: ("div class=\"callout ".toList ++ tag.kind.className
        ++ ['"'])) := by
    have htick := backtick_not_mem_opening tag
    refine .cons (by decide) ?_ (fun hmem => absurd hmem htick)
    cases tag.kind <;> decide
  have hback : KeepsFenceFree (trimmed ++ ending) ['>'] := by
    have htick : '\x60' ∉ trimmed ++ ending := by
      simp [backtick_not_mem_blanks htrimmed, backtick_not_mem_end hend]
    exact .cons (by decide) (by decide) (fun hmem => absurd hmem htick)
  have hparts := (hfront.append (.refl tag.attributes.trimEnd)).append hback
  have hold : tag.written ending
      = (if tag.closing then ['<', '/'] else ['<']) ++ tag.kind.tagName
        ++ tag.attributes.trimEnd ++ (trimmed ++ ending) := by
    unfold written
    conv => lhs; rw [ha]
    simp
  have hnew : tag.kind.container [] tag.attributes.trimEnd
      = '<' :: ("div class=\"callout ".toList ++ tag.kind.className ++ ['"'])
        ++ tag.attributes.trimEnd ++ ['>'] := by
    rw [CalloutKind.container_eq]
    unfold CalloutKind.containerBody
    rw [show addedClasses [] = [] from rfl]
    simp only [List.append_assoc, List.append_nil, List.cons_append,
      List.nil_append]
  rw [hold, hnew]
  exact hparts

/-- A container that a class is merged into is safe if the class has no new
line to move over, or there is no marker. -/
theorem keeps_container_static (hend : tag.Ends ending)
    {classes others : Text}
    (hstatic : ClassAttribute.ofAttributes tag.attributes.trimEnd
      = .static classes others)
    (h : '\n' ∉ tag.attributes
      ∨ '\x60' ∉ tag.attributes ∧ '~' ∉ tag.attributes) :
    KeepsFenceFree (tag.written ending)
      (tag.kind.container classes others) := by
  obtain ⟨trimmed, htrimmed, ha⟩ := Text.exists_trimEnd_append tag.attributes
  have hmem {c : Char} (hc : c = '\n' ∨ c = '\x60' ∨ c = '~')
      (hbody : c ∈ tag.kind.containerBody classes others) :
      c ∈ tag.attributes := by
    have hattributes := mem_of_merges (Or.inr hstatic)
      (CalloutKind.mem_containerBody hc hbody)
    rw [ha]
    exact List.mem_append_left _ hattributes
  rw [CalloutKind.container_eq]
  rcases h with hline | ⟨htick, htilde⟩
  · refine .cons (by decide) ?_ (fun hold => ?_)
    · intro hnew
      simp at hnew
      exact hline (hmem (Or.inl rfl) hnew)
    · rw [backtick_mem_written_iff hend, ha, List.mem_append,
        or_iff_left (backtick_not_mem_blanks htrimmed)] at hold
      unfold CalloutKind.containerBody
      rcases backtick_of_merges hstatic hold with hclass | hother
      · have := (CalloutKind.mem_addedClasses_iff (by decide)).2 hclass
        simp [this]
      · simp [hother]
  · have htickold : '\x60' ∉ tag.written ending := by
      rw [backtick_mem_written_iff hend]
      exact htick
    refine .markerless (by decide) (by decide) (by decide) (by decide)
      htickold ⟨fun hnew => ?_, fun hnew => ?_⟩ (fun hnew => ?_)
    · exact htick (hmem (Or.inr (Or.inl rfl)) hnew)
    · exact htilde (hmem (Or.inr (Or.inr rfl)) hnew)
    · unfold written
      exact List.mem_append_left _ (List.mem_append_right _
        (hmem (Or.inl rfl) hnew))

/-- What an anchored callout tag becomes keeps the fences. -/
theorem leavesFences_convert? (hend : tag.Ends ending)
    (hanchored : tag.Anchored) {opened : OpenCallouts} {new : Text}
    (hnew : (tag.convert? opened).1 = some new) :
    LeavesFences 1 (tag.written ending) new := by
  have hnotend : Text.endsWith '\n' true (tag.written ending) = false := by
    unfold written
    rw [Text.endsWith_append]
    rcases hend with ⟨-, rfl⟩ | ⟨-, blanks, -, rfl⟩
    · rfl
    · rw [Text.endsWith_append]
      rfl
  refine leavesFences_of_keeps hnotend ?_
  rcases convert?_eq_some hnew with
    ⟨-, hblank, -, rfl⟩ | ⟨hclosing, container, hcontainer, rfl⟩
  · refine keeps_containerEnd ?_
    rw [backtick_mem_written_iff hend]
    exact backtick_not_mem_blanks (Text.trimEnd_eq_nil_iff.1 hblank)
  · obtain ⟨classes, others, hmerges, rfl⟩ := container?_eq_some hcontainer
    have hkeeps : KeepsFenceFree (tag.written ending)
        (tag.kind.container classes others) := by
      rcases hmerges with ⟨rfl, rfl⟩ | hstatic
      · exact keeps_container_absent hend
      · exact keeps_container_static hend hstatic
          (hanchored hclosing classes others hstatic)
    have htail : KeepsFenceFree []
        (if tag.selfClosing then containerEnd else []) := by
      split
      · exact keeps_containerEnd (by simp)
      · exact .refl []
    have hall := hkeeps.append htail
    rw [List.append_nil] at hall
    exact hall

end CalloutTag

-- ============================================================= all rules

/-- A rule brings no fence to the start of a line, as long as the callouts
whose class it merges allow it. -/
theorem Rule.leavesFences_apply {rule : Rule} (h : rule ∈ Registry.rules)
    {s : Text} (hanchored : rule = Rule.callouts →
      ∀ tag ∈ calloutTagsOf s, tag.Anchored) :
    (rule.apply s).Follows LeavesFences s := by
  rcases Registry.mem_rules_iff.1 h with rfl | rfl | rfl | rfl
  · exact follows_apply_braceAttributes composes_leavesFences
      (fun a _ new hnew => BraceAttribute.leavesFences_template hnew) s
  · exact follows_apply_iframeClosing composes_leavesFences
      (fun attributes blanks _ hblanks =>
        SelfClosingIframe.leavesFences_expanded hblanks) s
  · exact follows_apply_attributeCasing composes_leavesFences
      (fun m _ hname => MixedCaseName.leavesFences_lowered hname) s
  · exact follows_apply_callouts composes_leavesFences
      fun tag htag _ ending hend opened new hnew =>
        CalloutTag.leavesFences_convert? hend (hanchored rfl tag htag) hnew

end ComponentMarkdown
