/-
Tallies: how often each rule made a substitution. A tally lists only rules
that made one, in order of their names, so two tallies that count alike are
the same tally.
-/
namespace ComponentMarkdown

namespace Tally

/-- Adds to the count of a name in a list ordered by name. -/
def bump (name : String) (n : Nat) : List (String × Nat) → List (String × Nat)
  | [] => [(name, n)]
  | (key, m) :: rest =>
    if name < key then (name, n) :: (key, m) :: rest
    else if name = key then (key, m + n) :: rest
    else (key, m) :: bump name n rest

theorem mem_bump {name : String} {n : Nat} {e : String × Nat}
    {l : List (String × Nat)} (h : e ∈ bump name n l) :
    e.1 = name ∨ ∃ e' ∈ l, e.1 = e'.1 := by
  induction l with
  | nil =>
    simp only [bump, List.mem_singleton] at h
    exact Or.inl (by rw [h])
  | cons hd tl ih =>
    obtain ⟨key, m⟩ := hd
    simp only [bump] at h
    split at h
    · rcases List.mem_cons.1 h with rfl | h
      · exact Or.inl rfl
      · exact Or.inr ⟨e, h, rfl⟩
    · split at h
      · rename_i hk
        rcases List.mem_cons.1 h with rfl | h
        · exact Or.inl hk.symm
        · exact Or.inr ⟨e, List.mem_cons_of_mem _ h, rfl⟩
      · rcases List.mem_cons.1 h with rfl | h
        · exact Or.inr ⟨_, List.mem_cons_self, rfl⟩
        · rcases ih h with h | ⟨e', he', h⟩
          · exact Or.inl h
          · exact Or.inr ⟨e', List.mem_cons_of_mem _ he', h⟩

theorem bump_ascending {name : String} {n : Nat} {l : List (String × Nat)}
    (h : l.Pairwise fun a b => a.1 < b.1) :
    (bump name n l).Pairwise fun a b => a.1 < b.1 := by
  induction l with
  | nil => simp [bump]
  | cons hd tl ih =>
    obtain ⟨key, m⟩ := hd
    obtain ⟨hhd, htl⟩ := List.pairwise_cons.1 h
    simp only [bump]
    split
    · rename_i hlt
      refine List.pairwise_cons.2 ⟨fun e he => ?_, h⟩
      rcases List.mem_cons.1 he with rfl | he
      · exact hlt
      · exact String.lt_trans hlt (hhd e he)
    · split
      · exact List.pairwise_cons.2 ⟨hhd, htl⟩
      · rename_i hlt hne
        refine List.pairwise_cons.2 ⟨fun e he => ?_, ih htl⟩
        rcases mem_bump he with h | ⟨e', he', h⟩
        · exact h ▸ Std.lt_of_le_of_ne (String.not_lt.1 hlt) (Ne.symm hne)
        · exact h ▸ hhd e' he'

theorem bump_positive {name : String} {n : Nat} {l : List (String × Nat)}
    (hn : 0 < n) (h : ∀ e ∈ l, 0 < e.2) : ∀ e ∈ bump name n l, 0 < e.2 := by
  induction l with
  | nil => simpa [bump] using hn
  | cons hd tl ih =>
    obtain ⟨key, m⟩ := hd
    obtain ⟨hhd, htl⟩ := List.forall_mem_cons.1 h
    simp only [bump]
    split
    · exact List.forall_mem_cons.2 ⟨hn, h⟩
    · split
      · exact List.forall_mem_cons.2 ⟨Nat.add_pos_left hhd n, htl⟩
      · exact List.forall_mem_cons.2 ⟨hhd, ih htl⟩

end Tally

/-- The substitutions made, by rule name: names ascend, and none stands
there with nothing. -/
structure Tally where
  entries : List (String × Nat)
  ascending : entries.Pairwise fun a b => a.1 < b.1
  positive : ∀ e ∈ entries, 0 < e.2

namespace Tally

/-- Nothing counted. -/
def empty : Tally := ⟨[], List.Pairwise.nil, by simp⟩

/-- Adds the substitutions that a rule made. -/
def record (t : Tally) (name : String) (n : Nat) : Tally :=
  if h : 0 < n then
    ⟨bump name n t.entries, bump_ascending t.ascending,
      bump_positive h t.positive⟩
  else t

/-- Adds everything that another tally counts. -/
def merge (t other : Tally) : Tally :=
  other.entries.foldl (fun acc e => acc.record e.1 e.2) t

/-- All substitutions together. -/
def total (t : Tally) : Nat := t.entries.foldr (fun e n => e.2 + n) 0

/-- Whether nothing was counted. -/
def isEmpty (t : Tally) : Bool := t.entries.isEmpty

/-- What was counted for one name. -/
def count (t : Tally) (name : String) : Nat :=
  (t.entries.lookup name).getD 0

end Tally

end ComponentMarkdown
