/-
What a tally counts, name by name. Recording adds to one name
(`count_record`) and merging adds name by name (`count_merge`), so the
tally of several records is their sum. The totals add up in the same way
(`total_record`, `total_merge`). Names ascend and no count is zero, so
tallies that count alike are the same (`ext_count`).

Entries are easier to add up than to look up: `amount` sums whatever
stands under a name, which is right for any list of entries, and equals
the look-up where names ascend.
-/
import ComponentMarkdown.Tally

namespace ComponentMarkdown.Tally

-- ============================================================= entries

/-- Everything that stands under a name. -/
def amount (name : String) (l : List (String × Nat)) : Nat :=
  l.foldr (fun e n => (if e.1 = name then e.2 else 0) + n) 0

theorem amount_cons (name : String) (e : String × Nat)
    (l : List (String × Nat)) :
    amount name (e :: l)
      = (if e.1 = name then e.2 else 0) + amount name l := rfl

/-- A name that does not occur amounts to nothing. -/
theorem amount_eq_zero {name : String} {l : List (String × Nat)}
    (h : ∀ e ∈ l, e.1 ≠ name) : amount name l = 0 := by
  induction l with
  | nil => rfl
  | cons e l ih =>
    obtain ⟨he, hl⟩ := List.forall_mem_cons.1 h
    rw [amount_cons, if_neg he, ih hl]

theorem amount_bump (key name : String) (n : Nat)
    (l : List (String × Nat)) :
    amount key (bump name n l)
      = amount key l + if name = key then n else 0 := by
  induction l with
  | nil => simp [bump, amount]
  | cons e l ih =>
    obtain ⟨k, m⟩ := e
    rw [bump]
    split
    · rw [amount_cons, Nat.add_comm]
    · split
      · rename_i hk
        rw [amount_cons, amount_cons, ← hk]
        by_cases h : name = key
        · simp only [if_pos h]
          omega
        · simp only [if_neg h]
          omega
      · rw [amount_cons, amount_cons, ih]
        omega

/-- Where names ascend, the first stands for all of its amount. -/
theorem amount_head {e : String × Nat} {l : List (String × Nat)}
    (h : (e :: l).Pairwise fun a b => a.1 < b.1) :
    amount e.1 (e :: l) = e.2 := by
  have hrest : amount e.1 l = 0 := amount_eq_zero fun d hd =>
    (String.ne_of_lt ((List.pairwise_cons.1 h).1 d hd)).symm
  rw [amount_cons, if_pos rfl, hrest, Nat.add_zero]

/-- And a name before the first does not occur. -/
theorem amount_of_lt {name : String} {e : String × Nat}
    {l : List (String × Nat)} (hname : name < e.1)
    (h : (e :: l).Pairwise fun a b => a.1 < b.1) :
    amount name (e :: l) = 0 := by
  refine amount_eq_zero (List.forall_mem_cons.2
    ⟨(String.ne_of_lt hname).symm, fun d hd => ?_⟩)
  have hd := (List.pairwise_cons.1 h).1 d hd
  exact (String.ne_of_lt (String.lt_trans hname hd)).symm

/-- Entries with ascending names and without zeros are determined by what
they amount to. -/
theorem eq_of_amount {l m : List (String × Nat)}
    (hl : l.Pairwise fun a b => a.1 < b.1) (hlpos : ∀ e ∈ l, 0 < e.2)
    (hm : m.Pairwise fun a b => a.1 < b.1) (hmpos : ∀ e ∈ m, 0 < e.2)
    (h : ∀ name, amount name l = amount name m) : l = m := by
  induction l generalizing m with
  | nil =>
    cases m with
    | nil => rfl
    | cons f m =>
      have hf := hmpos f List.mem_cons_self
      rw [← amount_head hm, ← h] at hf
      exact absurd hf (Nat.lt_irrefl 0)
  | cons e l ih =>
    obtain ⟨he, hlpos⟩ := List.forall_mem_cons.1 hlpos
    have hfirst := h e.1
    rw [amount_head hl] at hfirst
    cases m with
    | nil =>
      rw [hfirst] at he
      exact absurd he (Nat.lt_irrefl 0)
    | cons f m =>
      obtain ⟨hf, hmrest⟩ := List.forall_mem_cons.1 hmpos
      have hfirst' := h f.1
      rw [amount_head hm] at hfirst'
      -- the lesser of two first names would not occur in the other list
      have hle : ¬ f.1 < e.1 := fun hlt => by
        rw [amount_of_lt hlt hl] at hfirst'
        omega
      have hge : ¬ e.1 < f.1 := fun hlt => by
        rw [amount_of_lt hlt hm] at hfirst
        omega
      have hname : e.1 = f.1 :=
        String.le_antisymm (String.not_lt.1 hle) (String.not_lt.1 hge)
      have hhead : e = f := by
        refine Prod.ext hname ?_
        rw [hname, amount_head hm] at hfirst
        exact hfirst
      subst hhead
      refine congrArg (e :: ·) (ih (List.pairwise_cons.1 hl).2 hlpos
        (List.pairwise_cons.1 hm).2 hmrest fun name => ?_)
      have hall := h name
      rw [amount_cons, amount_cons] at hall
      exact Nat.add_left_cancel hall

/-- Looking a name up gives its amount, where names ascend. -/
theorem lookup_eq_amount {name : String} {l : List (String × Nat)}
    (h : l.Pairwise fun a b => a.1 < b.1) :
    (l.lookup name).getD 0 = amount name l := by
  induction l with
  | nil => rfl
  | cons e l ih =>
    obtain ⟨k, m⟩ := e
    obtain ⟨hk, hl⟩ := List.pairwise_cons.1 h
    rw [amount_cons, List.lookup_cons]
    cases hname : name == k with
    | true =>
      have hkey : name = k := eq_of_beq hname
      subst hkey
      have hrest : amount name l = 0 :=
        amount_eq_zero fun e he => (String.ne_of_lt (hk e he)).symm
      simp [hrest]
    | false =>
      have hne : k ≠ name := fun heq => by simp [heq] at hname
      simp only [if_neg hne, Nat.zero_add]
      exact ih hl

-- ============================================================= tallies

theorem count_eq_amount (t : Tally) (name : String) :
    t.count name = amount name t.entries :=
  lookup_eq_amount t.ascending

/-- Tallies that count alike are the same. -/
theorem ext_count {t t' : Tally} (h : ∀ name, t.count name = t'.count name) :
    t = t' := by
  have hentries : t.entries = t'.entries := by
    refine eq_of_amount t.ascending t.positive t'.ascending t'.positive ?_
    intro name
    rw [← count_eq_amount, ← count_eq_amount, h]
  obtain ⟨entries, ascending, positive⟩ := t
  obtain ⟨entries', ascending', positive'⟩ := t'
  cases hentries
  rfl

@[simp] theorem count_empty (name : String) : empty.count name = 0 := rfl

/-- Recording adds to the recorded name and to no other. -/
theorem count_record (t : Tally) (key name : String) (n : Nat) :
    (t.record name n).count key
      = t.count key + if name = key then n else 0 := by
  unfold record
  split
  · rw [count_eq_amount, amount_bump, count_eq_amount]
  · have hn : n = 0 := by omega
    simp [hn]

theorem count_foldl_record (key : String) (l : List (String × Nat))
    (t : Tally) :
    (l.foldl (fun acc e => acc.record e.1 e.2) t).count key
      = t.count key + amount key l := by
  induction l generalizing t with
  | nil => rfl
  | cons e l ih =>
    rw [List.foldl_cons, ih, count_record, amount_cons, Nat.add_assoc]

/-- Merging adds name by name. -/
theorem count_merge (t other : Tally) (key : String) :
    (t.merge other).count key = t.count key + other.count key := by
  rw [merge, count_foldl_record, count_eq_amount other]

-- =========================================================== the total

@[simp] theorem total_empty : empty.total = 0 := rfl

theorem foldr_bump (name : String) (n : Nat) (l : List (String × Nat)) :
    (bump name n l).foldr (fun e m => e.2 + m) 0
      = l.foldr (fun e m => e.2 + m) 0 + n := by
  induction l with
  | nil => simp [bump]
  | cons e l ih =>
    obtain ⟨k, m⟩ := e
    rw [bump]
    split
    · simp only [List.foldr_cons]
      omega
    · split
      · simp only [List.foldr_cons]
        omega
      · simp only [List.foldr_cons, ih]
        omega

theorem total_record (t : Tally) (name : String) (n : Nat) :
    (t.record name n).total = t.total + n := by
  unfold record
  split
  · exact foldr_bump name n t.entries
  · have hn : n = 0 := by omega
    simp [hn]

/-- Merging adds the totals. -/
theorem total_merge (t other : Tally) :
    (t.merge other).total = t.total + other.total := by
  unfold merge
  have hfold : ∀ (l : List (String × Nat)) (t : Tally),
      (l.foldl (fun acc e => acc.record e.1 e.2) t).total
        = t.total + l.foldr (fun e m => e.2 + m) 0 := by
    intro l
    induction l with
    | nil => exact fun t => rfl
    | cons e l ih =>
      intro t
      rw [List.foldl_cons, ih, total_record, List.foldr_cons, Nat.add_assoc]
  exact hfold other.entries t

/-- Nothing was counted exactly if the total is zero. -/
theorem total_eq_zero_iff (t : Tally) :
    t.total = 0 ↔ t.isEmpty = true := by
  obtain ⟨entries, ascending, positive⟩ := t
  cases entries with
  | nil => exact iff_of_true rfl rfl
  | cons e l =>
    have hpos : 0 < e.2 := positive e List.mem_cons_self
    refine iff_of_false ?_ Bool.false_ne_true
    show e.2 + _ ≠ 0
    omega

-- ====================================================== counting nothing

/-- A record of something shows. -/
theorem isEmpty_record {t : Tally} {name : String} {n : Nat} (hn : 0 < n) :
    (t.record name n).isEmpty = false := by
  unfold record
  rw [dif_pos hn]
  show (bump name n t.entries).isEmpty = false
  cases hl : t.entries with
  | nil => rfl
  | cons e l =>
    unfold bump
    split
    · rfl
    · split <;> rfl

end ComponentMarkdown.Tally
