/-
What a run of a pipeline adds up to. Its tally counts, under each name,
what the rules of that name count one after the other (`count_tally_run`),
so the run changes a text exactly when some rule counts something
(`changed_run_iff`).

A rule that counts nothing hands on the text it was given. A run without
a change is therefore one in which every rule counts nothing on the text
the run started with (`changed_run_eq_false_iff`). The text of a run is
what the rules make of it one after the other (`text_resume`).
-/
import ComponentMarkdown.Pipeline
import ComponentMarkdown.Proofs.Tally.Count

namespace ComponentMarkdown.Pipeline

-- ============================================================ one rule

theorem Output.absorb_of_zero (before : Output) (rule : Rule)
    {after : Edited} (h : after.count = 0) :
    before.absorb rule after = before := by
  unfold Output.absorb
  rw [if_pos h]

/-- What a rule makes of the text is kept, as long as a rule that counts
nothing leaves the text alone. -/
theorem Output.text_absorb (before : Output) (rule : Rule) {after : Edited}
    (h : after.count = 0 → after.text = before.text) :
    (before.absorb rule after).text = after.text := by
  unfold Output.absorb
  split
  · rename_i hcount
    exact (h hcount).symm
  · rfl

/-- The count of a rule grows by what it has replaced. -/
theorem Output.count_tally_absorb (before : Output) (rule : Rule)
    (after : Edited) (name : String) :
    (before.absorb rule after).tally.count name
      = before.tally.count name
        + if rule.name = name then after.count else 0 := by
  unfold Output.absorb
  split
  · rename_i h
    rw [h, ite_self, Nat.add_zero]
  · rw [Tally.count_record]

/-- An output is changed if it was, or if the rule has replaced something. -/
theorem Output.changed_absorb_iff (before : Output) (rule : Rule)
    (after : Edited) :
    (before.absorb rule after).changed = true
      ↔ before.changed = true ∨ 0 < after.count := by
  unfold Output.absorb
  split
  · rename_i h
    rw [h]
    simp
  · rename_i h
    have hpos : 0 < after.count := Nat.pos_of_ne_zero h
    unfold Output.changed
    rw [Tally.isEmpty_record hpos]
    simp [hpos]

-- ============================================================= the run

/-- Runs rules on what was made so far. -/
def resume (before : Output) (rules : List Rule) : Output :=
  rules.foldl (fun before rule => before.absorb rule (rule.apply before.text))
    before

/-- A run starts with the text and no tally. -/
theorem run_eq_resume (p : Pipeline) (t : Text) :
    p.run t = resume ⟨t, .empty⟩ p.rules := rfl

theorem resume_cons (before : Output) (rule : Rule) (rules : List Rule) :
    resume before (rule :: rules)
      = resume (before.absorb rule (rule.apply before.text)) rules := rfl

/-- The text of a run is what its rules make of it one after the other. -/
theorem text_resume {rules : List Rule}
    (h : ∀ rule ∈ rules, ∀ t,
      (rule.apply t).count = 0 → (rule.apply t).text = t)
    (before : Output) :
    (resume before rules).text
      = rules.foldl (fun t rule => (rule.apply t).text) before.text := by
  induction rules generalizing before with
  | nil => rfl
  | cons rule rules ih =>
    obtain ⟨hrule, hrules⟩ := List.forall_mem_cons.1 h
    rw [resume_cons, ih hrules, Output.text_absorb before rule (hrule _)]
    rfl

/-- A run adds the counts of its rules. -/
theorem count_tally_resume (before : Output) (rules : List Rule)
    (name : String) :
    (resume before rules).tally.count name
      = before.tally.count name
        + Tally.amount name (counts.go rules before) := by
  induction rules generalizing before with
  | nil => rfl
  | cons rule rules ih =>
    rw [resume_cons, ih, Output.count_tally_absorb, counts.go,
      Tally.amount_cons, Nat.add_assoc]

/-- An output is changed behind a run if it was before, or if one of the rules
counts. -/
theorem changed_resume_iff (before : Output) (rules : List Rule) :
    (resume before rules).changed = true
      ↔ before.changed = true ∨ ∃ e ∈ counts.go rules before, 0 < e.2 := by
  induction rules generalizing before with
  | nil => simp [resume, counts.go]
  | cons rule rules ih =>
    rw [resume_cons, ih, Output.changed_absorb_iff, counts.go]
    simp [or_assoc]

/-- Once a rule counts nothing, it is as if it were not there. -/
theorem forall_counts_eq_zero_iff (before : Output) (rules : List Rule) :
    (∀ e ∈ counts.go rules before, e.2 = 0)
      ↔ ∀ rule ∈ rules, (rule.apply before.text).count = 0 := by
  induction rules with
  | nil => simp [counts.go]
  | cons rule rules ih =>
    rw [counts.go, List.forall_mem_cons, List.forall_mem_cons]
    refine and_congr_right fun h => ?_
    rw [Output.absorb_of_zero before rule h]
    exact ih

/-- A run with no replacement gives back its text. -/
theorem resume_of_zero {before : Output} {rules : List Rule}
    (h : ∀ rule ∈ rules, (rule.apply before.text).count = 0) :
    resume before rules = before := by
  induction rules with
  | nil => rfl
  | cons rule rules ih =>
    obtain ⟨hrule, hrules⟩ := List.forall_mem_cons.1 h
    rw [resume_cons, Output.absorb_of_zero before rule hrule]
    exact ih hrules

-- ========================================================= whole pipelines

/-- A run's tally is what its rules count. -/
theorem count_tally_run (p : Pipeline) (t : Text) (name : String) :
    (p.run t).tally.count name = Tally.amount name (p.counts t) := by
  rw [run_eq_resume, count_tally_resume, Tally.count_empty, Nat.zero_add]
  rfl

/-- A run changes the text if one of its rules counts something. -/
theorem changed_run_iff (p : Pipeline) (t : Text) :
    (p.run t).changed = true ↔ ∃ e ∈ p.counts t, 0 < e.2 := by
  rw [run_eq_resume, changed_resume_iff]
  simp [Output.changed, Tally.empty, Tally.isEmpty, counts]

/-- A run changes nothing if every rule by itself counts nothing. -/
theorem changed_run_eq_false_iff (p : Pipeline) (t : Text) :
    (p.run t).changed = false
      ↔ ∀ rule ∈ p.rules, (rule.apply t).count = 0 := by
  rw [← Bool.not_eq_true, changed_run_iff,
    ← forall_counts_eq_zero_iff ⟨t, .empty⟩]
  simp only [counts, not_exists, not_and, Nat.not_lt, Nat.le_zero]

/-- A run that changes nothing gives its text back. -/
theorem run_of_changed_eq_false {p : Pipeline} {t : Text}
    (h : (p.run t).changed = false) : p.run t = ⟨t, .empty⟩ := by
  rw [run_eq_resume]
  exact resume_of_zero ((changed_run_eq_false_iff p t).1 h)

end ComponentMarkdown.Pipeline
