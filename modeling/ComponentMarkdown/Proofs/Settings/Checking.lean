/-
Which rules are selected, and which settings are sound. Rules are selected by
the set of their names: the canonical order decides how they run, and a name
that comes twice is as good as once (`Registry.pipeline_eq_ok_iff`). A
selection fails at its first unknown name, unless everything is asked for
(`Registry.pipeline_eq_error_iff`).

Settings are checked by a walk of its own, for which the name of everything is
one name among others and does not excuse an unknown one. So a check is
stricter than the selection: what passes it can be selected, and where the
selection fails, the check fails at the same name
(`selection_of_checked`). Only behind a check is it safe to pass over what is
no pattern, as the exclusion of paths does.
-/
import ComponentMarkdown.Settings

namespace ComponentMarkdown

open Glob

-- ========================================================= selecting rules

namespace Registry

/-- A name that a rule has. -/
def Known (name : String) : Prop := ∃ rule ∈ rules, rule.name = name

/-- The first of some names that no rule has. -/
def FirstUnknown (names : List String) (name : String) : Prop :=
  ∃ before after, names = before ++ name :: after
    ∧ ¬Known name ∧ ∀ other ∈ before, Known other

/-- The rules whose names are given, in canonical order, and all of them if
everything is. -/
def selected (names : List String) : List Rule :=
  rules.filter fun rule => everything ∈ names ∨ rule.name ∈ names

variable {names : List String}

theorem contains_iff {name : String} : contains name = true ↔ Known name := by
  unfold contains Known
  rw [List.any_eq_true]
  simp only [beq_iff_eq]

theorem not_contains_iff {name : String} :
    (!contains name) = true ↔ ¬Known name := by
  rw [Bool.not_eq_true', ← contains_iff, Bool.not_eq_true]

theorem find?_eq_none_iff :
    names.find? (!contains ·) = none ↔ ∀ name ∈ names, Known name := by
  rw [List.find?_eq_none]
  simp only [Bool.not_eq_true', Bool.not_eq_false, contains_iff]

theorem find?_eq_some_iff {name : String} :
    names.find? (!contains ·) = some name ↔ FirstUnknown names name := by
  rw [List.find?_eq_some_iff_append, not_contains_iff]
  simp only [Bool.not_not, contains_iff, FirstUnknown, exists_and_right,
    exists_and_left, and_left_comm]

/-- Everything selects every rule. -/
theorem selected_of_everything (h : everything ∈ names) :
    selected names = rules :=
  List.filter_eq_self.2 fun _ _ => decide_eq_true (Or.inl h)

theorem pipeline_of_everything (h : everything ∈ names) :
    pipeline names = .ok ⟨selected names⟩ := by
  unfold pipeline
  rw [if_pos (List.contains_iff_mem.2 h), selected_of_everything h]
  rfl

theorem pipeline_of_names (h : everything ∉ names) :
    pipeline names
      = match names.find? (!contains ·) with
        | some name => .error ⟨name⟩
        | none => .ok ⟨selected names⟩ := by
  have hselected : selected names
      = rules.filter fun rule => names.contains rule.name := by
    unfold selected
    simp only [h, false_or, List.contains_eq_mem]
  unfold pipeline
  rw [if_neg (by simpa using h)]
  cases names.find? (!contains ·) with
  | some name => rfl
  | none => exact congrArg (fun l => Except.ok (Pipeline.mk l)) hselected.symm

/-- A selection succeeds if everything is asked for or every name is known,
and then gives the named rules in canonical order. -/
theorem pipeline_eq_ok_iff {p : Pipeline} :
    pipeline names = .ok p
      ↔ (everything ∈ names ∨ ∀ name ∈ names, Known name)
        ∧ p = ⟨selected names⟩ := by
  by_cases hall : everything ∈ names
  · rw [pipeline_of_everything hall, and_iff_right (Or.inl hall),
      Except.ok.injEq, eq_comm]
  · rw [pipeline_of_names hall, or_iff_right hall, ← find?_eq_none_iff]
    cases names.find? (!contains ·) with
    | some name => exact iff_of_false nofun nofun
    | none =>
      rw [and_iff_right rfl]
      exact ⟨fun h => (Except.ok.inj h).symm, fun h => by rw [h]⟩

/-- It fails at the first unknown name, if everything is not asked for. -/
theorem pipeline_eq_error_iff {fault : UnknownRule} :
    pipeline names = .error fault
      ↔ everything ∉ names ∧ FirstUnknown names fault.name := by
  by_cases hall : everything ∈ names
  · rw [pipeline_of_everything hall]
    exact iff_of_false nofun fun h => h.1 hall
  · rw [pipeline_of_names hall, and_iff_right hall, ← find?_eq_some_iff]
    cases names.find? (!contains ·) with
    | some name =>
      rw [Option.some.injEq]
      refine ⟨fun h => ?_, fun h => ?_⟩
      · rw [← Except.error.inj h]
      · rw [h]
    | none => exact iff_of_false nofun nofun

/-- It makes no difference in which order the names come, and how often. -/
theorem toOption_pipeline_congr {names' : List String}
    (h : ∀ name, name ∈ names' ↔ name ∈ names) :
    (pipeline names').toOption = (pipeline names).toOption := by
  have hok (p : Pipeline) : pipeline names' = .ok p ↔ pipeline names = .ok p := by
    rw [pipeline_eq_ok_iff, pipeline_eq_ok_iff]
    unfold selected
    simp only [h]
  cases hp : pipeline names with
  | ok p => rw [(hok p).2 hp]
  | error fault =>
    cases hp' : pipeline names' with
    | ok p =>
      rw [(hok p).1 hp'] at hp
      cases hp
    | error fault' => rfl

end Registry

-- ======================================================= checking settings

namespace Settings

open Registry

variable {s : Settings}

/-- There is no fault in the rules if every name is known or that of
everything. -/
theorem ruleFault?_eq_none_iff :
    s.ruleFault? = none
      ↔ ∀ name ∈ s.rules, name = everything ∨ Known name := by
  unfold ruleFault?
  rw [Option.map_eq_none_iff, List.find?_eq_none]
  refine forall₂_congr fun name _ => ?_
  rw [Bool.and_eq_true, bne_iff_ne, not_contains_iff]
  by_cases h : name = everything
  · simp [h]
  · simp [h]

/-- Where everything is not asked for, the fault is what a selection finds. -/
theorem ruleFault?_of_firstUnknown {name : String} (hall : everything ∉ s.rules)
    (h : FirstUnknown s.rules name) :
    s.ruleFault? = some (.unknownRule ⟨name⟩) := by
  obtain ⟨before, after, hsplit, hname, hbefore⟩ := h
  have hne : name ≠ everything := by
    rintro rfl
    rw [hsplit] at hall
    exact hall (List.mem_append_right _ List.mem_cons_self)
  have hfind : (s.rules.find? fun name =>
      name != everything && !contains name) = some name := by
    refine List.find?_eq_some_iff_append.2 ⟨?_, before, after, hsplit, ?_⟩
    · rw [not_contains_iff.2 hname, Bool.and_true, bne_iff_ne]
      exact hne
    · intro other hother
      rw [contains_iff.2 (hbefore other hother), Bool.not_true, Bool.and_false,
        Bool.not_false]
  unfold ruleFault?
  rw [hfind]
  rfl

/-- There is no fault in the patterns if each can be read. -/
theorem excludeFault?_eq_none_iff :
    s.excludeFault? = none
      ↔ ∀ p ∈ s.exclude, ∃ pattern, Pattern.ofText? p.toList = .ok pattern := by
  unfold excludeFault?
  rw [List.findSome?_eq_none_iff]
  refine forall₂_congr fun p _ => ?_
  cases Pattern.ofText? p.toList with
  | ok pattern => exact iff_of_true rfl ⟨pattern, rfl⟩
  | error fault => exact iff_of_false nofun nofun

/-- Settings pass a check, as they are, if they have no fault. -/
theorem checked_eq_ok_iff {s' : Settings} :
    s.checked = .ok s'
      ↔ s.ruleFault? = none ∧ s.excludeFault? = none ∧ s' = s := by
  unfold checked
  rw [← and_assoc, ← Option.or_eq_none_iff]
  cases s.ruleFault?.or s.excludeFault? with
  | some fault => exact iff_of_false nofun nofun
  | none =>
    rw [and_iff_right rfl]
    exact ⟨fun h => (Except.ok.inj h).symm, fun h => by rw [h]⟩

/-- Where every pattern can be read, all of them are tried on a path. -/
theorem exists_patterns_of_readable {exclude : List String}
    (h : ∀ p ∈ exclude, ∃ pattern, Pattern.ofText? p.toList = .ok pattern) :
    ∃ patterns : List Pattern,
      exclude.map (fun p => Pattern.ofText? p.toList) = patterns.map .ok := by
  induction exclude with
  | nil => exact ⟨[], rfl⟩
  | cons p exclude ih =>
    obtain ⟨⟨pattern, hp⟩, hrest⟩ := List.forall_mem_cons.1 h
    obtain ⟨patterns, hpatterns⟩ := ih hrest
    exact ⟨pattern :: patterns, by rw [List.map_cons, hp, hpatterns]; rfl⟩

theorem excludes_of_patterns {patterns : List Pattern}
    (h : s.exclude.map (fun p => Pattern.ofText? p.toList)
      = patterns.map .ok) (path : String) :
    s.excludes path = patterns.any fun pattern =>
      pattern.isMatch path.toList := by
  unfold excludes
  generalize s.exclude = exclude at h
  induction exclude generalizing patterns with
  | nil =>
    cases patterns with
    | nil => rfl
    | cons pattern patterns => cases h
  | cons p exclude ih =>
    cases patterns with
    | nil => cases h
    | cons pattern patterns =>
      rw [List.map_cons, List.map_cons, List.cons.injEq] at h
      rw [List.any_cons, List.any_cons, h.1, ih h.2]

/-- Settings whose names are known or that of everything have a transformer,
for the rules that they select. -/
theorem transformer_of_known
    (h : ∀ name ∈ s.rules, name = everything ∨ Known name) :
    s.transformer = .ok ⟨s.markdownSuffix, ⟨selected s.rules⟩⟩ := by
  have hpipeline : pipeline s.rules = .ok ⟨selected s.rules⟩ := by
    refine pipeline_eq_ok_iff.2 ⟨?_, rfl⟩
    by_cases hall : everything ∈ s.rules
    · exact Or.inl hall
    · refine Or.inr fun name hname => (h name hname).resolve_left ?_
      rintro rfl
      exact hall hname
  unfold transformer
  rw [hpipeline]
  rfl

theorem transformer_eq_error_iff {fault : UnknownRule} :
    s.transformer = .error fault ↔ pipeline s.rules = .error fault := by
  unfold transformer
  cases pipeline s.rules with
  | ok p => exact iff_of_false nofun nofun
  | error other =>
    exact ⟨fun h => congrArg _ (Except.error.inj h),
      fun h => congrArg _ (Except.error.inj h)⟩

/-- Rules are selected by the set of their names: a selection succeeds if
everything is asked for or every name is known, gives the named rules (or all)
in canonical order, and else fails at the first unknown name. Settings that
pass the check have a transformer, and all of their patterns are tried on a
path; and where there is no transformer, the check fails at the same name. -/
theorem selection_of_checked :
    (∀ names : List String,
      ((∃ p, pipeline names = .ok p)
        ↔ everything ∈ names ∨ ∀ name ∈ names, Known name)
      ∧ (∀ p, pipeline names = .ok p → p.rules = selected names)
      ∧ (∀ fault, pipeline names = .error fault →
        FirstUnknown names fault.name)
      ∧ ∀ names' : List String, (∀ name, name ∈ names' ↔ name ∈ names) →
        (pipeline names').toOption = (pipeline names).toOption)
    ∧ ∀ s : Settings,
      (∀ s', s.checked = .ok s' →
        s' = s
          ∧ s.transformer = .ok ⟨s.markdownSuffix, ⟨selected s.rules⟩⟩
          ∧ ∃ patterns : List Pattern,
            s.exclude.map (fun p => Pattern.ofText? p.toList)
                = patterns.map .ok
              ∧ ∀ path, s.excludes path
                = patterns.any fun pattern => pattern.isMatch path.toList)
      ∧ ∀ fault, s.transformer = .error fault →
        s.checked = .error (.unknownRule fault)
          ∧ FirstUnknown s.rules fault.name := by
  refine ⟨fun names => ⟨?_, fun p hp => ?_, fun fault hfault => ?_,
    fun names' => toOption_pipeline_congr⟩,
    fun s => ⟨fun s' hs => ?_, fun fault hfault => ?_⟩⟩
  · simp only [pipeline_eq_ok_iff, exists_and_left, exists_eq, and_true]
  · rw [(pipeline_eq_ok_iff.1 hp).2]
  · exact (pipeline_eq_error_iff.1 hfault).2
  · obtain ⟨hrules, hexclude, rfl⟩ := checked_eq_ok_iff.1 hs
    obtain ⟨patterns, hpatterns⟩ :=
      exists_patterns_of_readable (excludeFault?_eq_none_iff.1 hexclude)
    exact ⟨rfl, transformer_of_known (ruleFault?_eq_none_iff.1 hrules),
      patterns, hpatterns, excludes_of_patterns hpatterns⟩
  · obtain ⟨hall, hfirst⟩ :=
      pipeline_eq_error_iff.1 (transformer_eq_error_iff.1 hfault)
    refine ⟨?_, hfirst⟩
    unfold checked
    rw [ruleFault?_of_firstUnknown hall hfirst]
    rfl

end Settings

end ComponentMarkdown
