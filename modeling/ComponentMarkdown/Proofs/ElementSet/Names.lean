/-
What a set of elements holds. However it comes about, from some names and by
adding further ones, it holds the kebab case of the names that are not blank,
without the blanks around them, and nothing else (`mem_set_iff`). Order,
grouping and repetition of the names leave no trace, since a set is its
members (`ext_mem`).

A tag is looked up as it is, without trimming. That is all the same to the
set, whose members have no blanks around them and are in kebab case already.
-/
import ComponentMarkdown.Proofs.ElementSet.KebabCase

namespace ComponentMarkdown

open Text

/-- A name as it is kept, if it is not blank. -/
def keptName (name : String) : Text := kebabCase (trim name.toList)

theorem kebabCase_keptName (name : String) :
    kebabCase (keptName name) = keptName name :=
  kebabCase_kebabCase _

theorem trim_keptName (name : String) : (keptName name).trim = keptName name := by
  unfold keptName
  rw [trim_kebabCase, trim_trim]

theorem keptName_ne_nil_iff {name : String} :
    keptName name ≠ [] ↔ trim name.toList ≠ [] :=
  not_congr kebabCase_eq_nil_iff

/-- A name that was kept once is kept as it is. -/
theorem keptName_ofList_keptName (name : String) :
    keptName (String.ofList (keptName name)) = keptName name := by
  unfold keptName
  rw [String.toList_ofList, ← keptName, trim_keptName, kebabCase_keptName]

namespace ElementSet

-- ============================================================== members

/-- A set is its members. -/
theorem ext_mem {s s' : ElementSet}
    (h : ∀ name, name ∈ s.names ↔ name ∈ s'.names) : s = s' := by
  have hperm : s.names.Perm s'.names :=
    (List.perm_ext_iff_of_nodup (s.ascending.imp String.ne_of_lt)
      (s'.ascending.imp String.ne_of_lt)).2 h
  have hnames : s.names = s'.names :=
    hperm.eq_of_pairwise (fun a b _ _ hab hba =>
      absurd (String.lt_trans hab hba) (String.lt_irrefl a))
      s.ascending s'.ascending
  obtain ⟨names, ascending⟩ := s
  obtain ⟨names', ascending'⟩ := s'
  cases hnames
  rfl

/-- Of a name that is added, only what is kept of it matters. -/
theorem add_eq_of_keptName {name name' : String}
    (h : keptName name = keptName name') (s : ElementSet) :
    s.add name = s.add name' := by
  unfold add
  rw [← keptName, ← keptName, h]

theorem mem_add_iff {s : ElementSet} {name e : String} :
    e ∈ (s.add name).names
      ↔ e ∈ s.names
        ∨ keptName name ≠ [] ∧ e = String.ofList (keptName name) := by
  unfold add
  rw [← keptName]
  cases hkept : keptName name with
  | nil => simp
  | cons c kept =>
    dsimp only
    rw [mem_insertName, or_comm]
    simp

theorem mem_extend_iff {s : ElementSet} {names : List String} {e : String} :
    e ∈ (s.extend names).names
      ↔ e ∈ s.names ∨ ∃ name ∈ names,
        keptName name ≠ [] ∧ e = String.ofList (keptName name) := by
  unfold extend
  induction names generalizing s with
  | nil => simp
  | cons name names ih =>
    rw [List.foldl_cons, ih, mem_add_iff, or_assoc]
    simp

theorem contains_iff {s : ElementSet} {tag : String} :
    s.contains tag = true
      ↔ String.ofList (kebabCase tag.toList) ∈ s.names := by
  unfold contains
  exact List.contains_iff_mem

theorem contains_add_iff {s : ElementSet} {name tag : String} :
    (s.add name).contains tag = true
      ↔ s.contains tag = true
        ∨ keptName name ≠ [] ∧ kebabCase tag.toList = keptName name := by
  rw [contains_iff, mem_add_iff, ← contains_iff, String.ofList_inj]

/-- A tag is in a set exactly if its kebab case is. -/
theorem contains_kebabCase (s : ElementSet) (tag : String) :
    s.contains (String.ofList (kebabCase tag.toList)) = s.contains tag := by
  unfold contains
  rw [String.toList_ofList, kebabCase_kebabCase]

-- ========================================================= constructions

/-- How a set comes about. -/
inductive Construction where
  | ofNames (names : List String)
  | extend (before : Construction) (names : List String)

namespace Construction

/-- The set in the end. -/
def set : Construction → ElementSet
  | ofNames names => .ofNames names
  | extend before names => before.set.extend names

/-- The names that went into it. -/
def given : Construction → List String
  | ofNames names => names
  | extend before names => before.given ++ names

/-- Its members are the kept names of those that were given. -/
theorem mem_set_iff {c : Construction} {e : String} :
    e ∈ c.set.names
      ↔ ∃ name ∈ c.given,
        keptName name ≠ [] ∧ e = String.ofList (keptName name) := by
  induction c with
  | ofNames names =>
    rw [set, given, ElementSet.ofNames, mem_extend_iff]
    exact or_iff_right List.not_mem_nil
  | extend before names ih =>
    rw [set, given, mem_extend_iff, ih]
    simp only [List.mem_append, or_and_right, exists_or]

/-- A set holds names in kebab case that are not empty. It depends on nothing
but the set of the names that were given, and is not changed by its own. A
tag is in it exactly if it has the kebab case of a name that was given, apart
from the blanks around that, and is not blank; so a tag is in it exactly if
its kebab case is. -/
theorem set_of_given (c : Construction) :
    (∀ name ∈ c.set.names,
      name ≠ "" ∧ kebabCase name.toList = name.toList)
    ∧ (∀ c' : Construction, (∀ name, name ∈ c'.given ↔ name ∈ c.given) →
      c'.set = c.set)
    ∧ c.set.extend c.set.names = c.set
    ∧ (∀ tag, c.set.contains tag = true
      ↔ ∃ name ∈ c.given, trim name.toList ≠ []
        ∧ kebabCase (trim name.toList) = kebabCase tag.toList)
    ∧ ∀ tag, c.set.contains tag
      = c.set.contains (String.ofList (kebabCase tag.toList)) := by
  refine ⟨fun e he => ?_, fun c' hgiven => ?_, ?_, fun tag => ?_,
    fun tag => (contains_kebabCase c.set tag).symm⟩
  · obtain ⟨name, -, hne, rfl⟩ := mem_set_iff.1 he
    rw [String.toList_ofList, kebabCase_keptName]
    refine ⟨fun hempty => hne ?_, rfl⟩
    rw [← String.toList_ofList (l := keptName name), hempty]
    rfl
  · refine ext_mem fun e => ?_
    rw [mem_set_iff, mem_set_iff]
    simp only [hgiven]
  · refine ext_mem fun e => ?_
    rw [mem_extend_iff]
    refine or_iff_left_of_imp ?_
    rintro ⟨kept, hkept, -, rfl⟩
    -- a member is the kept name of another name, so it is kept as it is
    obtain ⟨name, -, -, rfl⟩ := mem_set_iff.1 hkept
    rw [keptName_ofList_keptName]
    exact hkept
  · rw [contains_iff, mem_set_iff]
    refine exists_congr fun name => and_congr_right fun _ => ?_
    rw [keptName_ne_nil_iff, String.ofList_inj, eq_comm, keptName]

end Construction

end ElementSet

end ComponentMarkdown
