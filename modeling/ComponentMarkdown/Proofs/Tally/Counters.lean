/-
Named counters: tallies that rules are recorded in and that are merged into
each other, in any sequence. Whatever was recorded anywhere reaches a counter
directly, or with a merge or a copy of the counter it stands in; a counter
that is merged into itself is reached once more by all that it holds. What a
counter holds under a name is the sum of what reached it under that name
(`mem_entries_run_iff`), and nothing else is kept of the sequence.

So it makes no difference in which order tallies are merged, nor which of
them are merged with each other first (`Merging.result_eq_of_perm`).
-/
import ComponentMarkdown.Proofs.Tally.Count
import Mathlib.Algebra.GroupWithZero.Nat
import Mathlib.Logic.Function.Basic

namespace ComponentMarkdown

namespace Tally

-- ============================================================= entries

theorem amount_append (name : String) (l m : List (String × Nat)) :
    amount name (l ++ m) = amount name l + amount name m := by
  induction l with
  | nil => simp [amount]
  | cons e l ih =>
    rw [List.cons_append, amount_cons, amount_cons, ih, Nat.add_assoc]

/-- Where names ascend and no count is zero, the entries are what they
amount to. -/
theorem mem_iff_amount {l : List (String × Nat)}
    (hl : l.Pairwise fun a b => a.1 < b.1) (hpos : ∀ e ∈ l, 0 < e.2)
    (name : String) (n : Nat) :
    (name, n) ∈ l ↔ 0 < n ∧ amount name l = n := by
  induction l with
  | nil =>
    refine iff_of_false List.not_mem_nil ?_
    rintro ⟨hn, rfl⟩
    exact Nat.lt_irrefl 0 hn
  | cons e l ih =>
    obtain ⟨k, m⟩ := e
    obtain ⟨hk, hrest⟩ := List.pairwise_cons.1 hl
    obtain ⟨hm, hpos⟩ := List.forall_mem_cons.1 hpos
    rw [List.mem_cons, ih hrest hpos, amount_cons, Prod.mk.injEq]
    by_cases hname : k = name
    · -- the first entry has the name, so no later one has it
      subst hname
      have hnone : amount k l = 0 := amount_eq_zero fun e he =>
        (String.ne_of_lt (hk e he)).symm
      rw [hnone, if_pos rfl]
      have hm : 0 < m := hm
      constructor
      · rintro (⟨-, rfl⟩ | ⟨hn, rfl⟩)
        · exact ⟨hm, rfl⟩
        · exact absurd hn (Nat.lt_irrefl 0)
      · rintro ⟨-, heq⟩
        exact Or.inl ⟨rfl, heq.symm⟩
    · rw [if_neg hname, Nat.zero_add]
      exact or_iff_right fun h => hname h.1.symm

/-- The entries of a tally are its counts, as far as they are not zero. -/
theorem mem_entries_iff (t : Tally) (name : String) (n : Nat) :
    (name, n) ∈ t.entries ↔ 0 < n ∧ t.count name = n := by
  rw [mem_iff_amount t.ascending t.positive, count_eq_amount]

-- ============================================================== merging

/-- A way to merge tallies: which of them are merged with each other, and in
which order. -/
inductive Merging where
  | nothing
  | single (t : Tally)
  | both (first second : Merging)

namespace Merging

/-- The tallies that are merged, from the first to the last. -/
def tallies : Merging → List Tally
  | nothing => []
  | single t => [t]
  | both first second => first.tallies ++ second.tallies

/-- The tally they are merged to. -/
def result : Merging → Tally
  | nothing => .empty
  | single t => t
  | both first second => first.result.merge second.result

/-- What is counted in the end is what the tallies count together. -/
theorem count_result (m : Merging) (name : String) :
    m.result.count name = (m.tallies.map (·.count name)).sum := by
  induction m with
  | nothing => rfl
  | single t => simp [result, tallies]
  | both first second ihfirst ihsecond =>
    rw [result, count_merge, ihfirst, ihsecond, tallies, List.map_append,
      List.sum_append]

/-- Neither order nor grouping matters. -/
theorem result_eq_of_perm {m m' : Merging} (h : m.tallies.Perm m'.tallies) :
    m.result = m'.result := by
  refine ext_count fun name => ?_
  rw [count_result, count_result]
  exact (h.map _).sum_nat

end Merging

end Tally

-- ============================================================ counters

/-- Tallies by the names of counters. -/
abbrev Counters := String → Tally

namespace Counters

/-- What can be done to counters. -/
inductive Step where
  /-- A rule made substitutions. -/
  | record (counter rule : String) (n : Nat)
  /-- A counter takes in what another one holds, or what it holds itself. -/
  | merge (counter source : String)
  /-- A counter is replaced by a copy. -/
  | copy (counter source : String)

/-- The counters after one step. -/
def step (c : Counters) : Step → Counters
  | .record counter rule n =>
    Function.update c counter ((c counter).record rule n)
  | .merge counter source =>
    Function.update c counter ((c counter).merge (c source))
  | .copy counter source => Function.update c counter (c source)

/-- The counters after steps that start with nothing counted. -/
def run (steps : List Step) : Counters := steps.foldl step fun _ => .empty

/-- What reached the counters: rules and how often they were recorded, in the
order they came in. -/
abbrev History := String → List (String × Nat)

/-- What has reached the counters after one more step. -/
def History.step (h : History) : Step → History
  | .record counter rule n =>
    Function.update h counter (h counter ++ [(rule, n)])
  | .merge counter source =>
    Function.update h counter (h counter ++ h source)
  | .copy counter source => Function.update h counter (h source)

/-- What the steps made reach a counter. -/
def reached (steps : List Step) : History :=
  steps.foldl History.step fun _ => []

/-- Each counter holds the sum of what reached it. -/
def Holds (c : Counters) (h : History) : Prop :=
  ∀ counter rule, (c counter).count rule = Tally.amount rule (h counter)

/-- One counter may come to hold something else, as long as it is the sum of
what reaches it then. -/
theorem Holds.update {c : Counters} {h : History} (hc : Holds c h)
    (counter : String) {t : Tally} {l : List (String × Nat)}
    (ht : ∀ rule, t.count rule = Tally.amount rule l) :
    Holds (Function.update c counter t) (Function.update h counter l) := by
  intro other rule
  by_cases heq : other = counter
  · subst heq
    rw [Function.update_self, Function.update_self, ht]
  · rw [Function.update_of_ne heq, Function.update_of_ne heq, hc]

/-- Every step adds to a counter what it makes reach it. -/
theorem Holds.step {c : Counters} {h : History} (hc : Holds c h) (s : Step) :
    Holds (c.step s) (h.step s) := by
  cases s with
  | record counter rule n =>
    refine hc.update counter fun key => ?_
    rw [Tally.count_record, Tally.amount_append, hc]
    rfl
  | merge counter source =>
    refine hc.update counter fun key => ?_
    rw [Tally.count_merge, Tally.amount_append, hc, hc]
  | copy counter source => exact hc.update counter (hc source)

theorem Holds.foldl {c : Counters} {h : History} (hc : Holds c h)
    (steps : List Step) :
    Holds (steps.foldl Counters.step c) (steps.foldl History.step h) := by
  induction steps generalizing c h with
  | nil => exact hc
  | cons s steps ih => exact ih (hc.step s)

/-- After any steps, each counter holds the sum of what reached it. -/
theorem holds_run (steps : List Step) : Holds (run steps) (reached steps) :=
  Holds.foldl (fun _ _ => rfl) steps

/-- The entries of a counter are the sums of what reached it under a name, as
far as they are not zero. -/
theorem mem_entries_run_iff (steps : List Step) (counter rule : String)
    (n : Nat) :
    (rule, n) ∈ (run steps counter).entries
      ↔ 0 < n ∧ Tally.amount rule (reached steps counter) = n := by
  rw [Tally.mem_entries_iff, holds_run]

end Counters

end ComponentMarkdown
