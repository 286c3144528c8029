/-
Pipelines one after the other. A run goes on from where another one stopped
exactly as it would start there: of what came before, it sees the text alone
and adds to the tally (`resume_eq_merge`). So the rules of two pipelines in
one run make the text that the second makes of what the first has made, and
count what both count (`run_append_eq_merge`).

Taken apart down to single rules, a tally holds under each name what the
rules of that name count, each on the text that the rules before it have made
(`counts_eq_mapIdx`).
-/
import ComponentMarkdown.Proofs.Pipeline.Counts
import Mathlib.Algebra.GroupWithZero.Nat

namespace ComponentMarkdown.Pipeline

/-- What a run makes of an output so far depends on the text alone, and what
it counts is added. -/
theorem resume_eq_merge (before : Output) (rules : List Rule) :
    resume before rules
      = ⟨(run ⟨rules⟩ before.text).text,
        before.tally.merge (run ⟨rules⟩ before.text).tally⟩ := by
  induction rules generalizing before with
  | nil => rfl
  | cons rule rules ih =>
    rw [run_eq_resume]
    dsimp only
    rw [resume_cons, resume_cons]
    dsimp only
    by_cases h : (rule.apply before.text).count = 0
    · rw [Output.absorb_of_zero _ _ h, Output.absorb_of_zero _ _ h, ih,
        ← run_eq_resume ⟨rules⟩]
    · rw [ih, ih]
      unfold Output.absorb
      rw [if_neg h, if_neg h]
      refine congrArg (Output.mk _) (Tally.ext_count fun name => ?_)
      dsimp only
      rw [Tally.count_merge, Tally.count_merge, Tally.count_merge,
        Tally.count_record, Tally.count_record, Tally.count_empty,
        Nat.zero_add, Nat.add_assoc]

-- ============================================================ occurrences

/-- The text that the rule at a place of a pipeline is given. -/
def received (rules : List Rule) (t : Text) (i : Nat) : Text :=
  (run ⟨rules.take i⟩ t).text

/-- What each rule counts, it counts on the text that it is given. -/
theorem counts_eq_mapIdx (before : Output) (rules : List Rule) :
    counts.go rules before
      = rules.mapIdx fun i rule =>
        (rule.name, (rule.apply (resume before (rules.take i)).text).count) := by
  induction rules generalizing before with
  | nil => rfl
  | cons rule rules ih =>
    rw [List.mapIdx_cons, counts.go, ih]
    rfl

theorem amount_mapIdx (name : String) (rules : List Rule)
    (count : Nat → Rule → Nat) :
    Tally.amount name (rules.mapIdx fun i rule => (rule.name, count i rule))
      = (rules.mapIdx fun i rule =>
        if rule.name = name then count i rule else 0).sum := by
  induction rules generalizing count with
  | nil => rfl
  | cons rule rules ih =>
    rw [List.mapIdx_cons, List.mapIdx_cons, Tally.amount_cons, ih,
      List.sum_cons]

/-- The rules of two pipelines in one run make what the second makes of what
the first has made, and the tallies are merged. Each name is tallied with
what its rules count, wherever they stand, on the texts that they are
given. -/
theorem run_append_eq_merge (p q : List Rule) (t : Text) :
    run ⟨p ++ q⟩ t
        = ⟨(run ⟨q⟩ (run ⟨p⟩ t).text).text,
          (run ⟨p⟩ t).tally.merge (run ⟨q⟩ (run ⟨p⟩ t).text).tally⟩
      ∧ ∀ name, (run ⟨p⟩ t).tally.count name
        = (p.mapIdx fun i rule =>
          if rule.name = name then (rule.apply (received p t i)).count
          else 0).sum := by
  constructor
  · have hresume : run ⟨p ++ q⟩ t = resume (run ⟨p⟩ t) q :=
      List.foldl_append
    rw [hresume, resume_eq_merge]
  · intro name
    rw [count_tally_run, counts, counts_eq_mapIdx, amount_mapIdx]
    rfl

end ComponentMarkdown.Pipeline
