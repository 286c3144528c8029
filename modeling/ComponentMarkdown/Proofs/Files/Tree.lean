/-
What a new file in the place of another changes in a tree: what that one
file holds, and nothing else. Every place leads where it led before, to a
file or to a directory, so all paths can be followed as before
(`kindAt_put`), and all other files hold what they held
(`contentsAt_put`).
-/
import ComponentMarkdown.Files.Tree

namespace ComponentMarkdown.Files.Tree

-- ============================================================ entries

theorem lookup_setEntry_self (name : String) (t : Tree)
    (entries : List (String × Tree)) :
    (setEntry name t entries).lookup name = some t := by
  induction entries with
  | nil => simp [setEntry]
  | cons e entries ih =>
    obtain ⟨key, old⟩ := e
    unfold setEntry
    split
    · exact List.lookup_cons_self
    · split
      · rename_i hkey
        subst hkey
        exact List.lookup_cons_self
      · rename_i hkey
        rw [List.lookup_cons, beq_false_of_ne hkey]
        exact ih

theorem lookup_setEntry_of_ne {name other : String} (h : other ≠ name)
    (t : Tree) (entries : List (String × Tree)) :
    (setEntry name t entries).lookup other = entries.lookup other := by
  induction entries with
  | nil => simp [setEntry, List.lookup_cons, beq_false_of_ne h]
  | cons e entries ih =>
    obtain ⟨key, old⟩ := e
    unfold setEntry
    split
    · rw [List.lookup_cons, beq_false_of_ne h]
    · split
      · rename_i hkey
        subst hkey
        rw [List.lookup_cons, List.lookup_cons, beq_false_of_ne h]
      · rw [List.lookup_cons, List.lookup_cons, ih]

-- ============================================================= places

/-- Whether a directory stands at a place, if anything does. -/
def kindAt (t : Tree) (place : Place) : Option Bool :=
  (t.at? place).map isDir

/-- What the file at a place holds, if a file stands there. -/
def contentsAt (t : Tree) (place : Place) : Option Contents :=
  match t.at? place with
  | some (.file c) => some c
  | _ => none

theorem at?_cons (t : Tree) (name : String) (rest : Place) :
    t.at? (name :: rest) = (t.entries.lookup name).bind (at? · rest) := rfl

theorem at?_of_contentsAt {t : Tree} {place : Place} {c : Contents}
    (h : t.contentsAt place = some c) : t.at? place = some (.file c) := by
  unfold contentsAt at h
  split at h
  · rename_i hfile
    cases h
    exact hfile
  · cases h

theorem kindAt_of_contentsAt {t : Tree} {place : Place} {c : Contents}
    (h : t.contentsAt place = some c) : t.kindAt place = some false := by
  unfold kindAt
  rw [at?_of_contentsAt h]
  rfl

/-- Below a file there is nothing, so a tree with something below its root
is a directory. -/
theorem isDir_of_lookup {t below : Tree} {name : String}
    (h : t.entries.lookup name = some below) : t.isDir = true := by
  cases t with
  | file c => cases h
  | dir es => rfl

theorem at?_append (t : Tree) (a b : Place) :
    t.at? (a ++ b) = (t.at? a).bind (at? · b) := by
  induction a generalizing t with
  | nil => rfl
  | cons name a ih =>
    rw [List.cons_append, at?_cons, at?_cons]
    cases t.entries.lookup name with
    | none => rfl
    | some below => exact ih below

theorem kindAt_of_dir {t : Tree} {place : Place}
    {entries : List (String × Tree)}
    (h : t.at? place = some (.dir entries)) : t.kindAt place = some true := by
  unfold kindAt
  rw [h]
  rfl

theorem exists_of_kindAt {t : Tree} {place : Place}
    (h : t.kindAt place = some true) :
    ∃ entries, t.at? place = some (.dir entries) := by
  obtain ⟨u, hat, hdir⟩ := Option.map_eq_some_iff.1 h
  cases u with
  | file c => cases hdir
  | dir entries => exact ⟨entries, hat⟩

/-- The kinds of the entries of a directory. -/
theorem kindAt_concat {t : Tree} {place : Place}
    {entries : List (String × Tree)} (h : t.at? place = some (.dir entries))
    (name : String) :
    t.kindAt (place ++ [name]) = (entries.lookup name).map isDir := by
  unfold kindAt
  rw [at?_append, h, Option.bind_some, at?_cons]
  exact congrArg (Option.map isDir) (Option.bind_fun_some _)

/-- Above a directory stands a directory. -/
theorem kindAt_dropLast {t : Tree} {place : Place}
    (h : t.kindAt place = some true) :
    t.kindAt place.dropLast = some true := by
  rcases List.eq_nil_or_concat place with rfl | ⟨above, name, rfl⟩
  · exact h
  · rw [List.concat_eq_append] at h ⊢
    rw [List.dropLast_concat]
    unfold kindAt at h ⊢
    rw [at?_append] at h
    cases habove : t.at? above with
    | none =>
      rw [habove] at h
      cases h
    | some u =>
      rw [habove, Option.bind_some, at?_cons] at h
      cases hlookup : u.entries.lookup name with
      | none =>
        rw [hlookup] at h
        cases h
      | some below => exact congrArg some (isDir_of_lookup hlookup)

/-- What a tree put at a place changes is in the entry it goes into. -/
theorem at?_put_cons (t new : Tree) (name name' : String)
    (rest rest' : Place) :
    (t.put (name :: rest) new).at? (name' :: rest')
      = if name' = name then
          (((t.entries.lookup name).getD empty).put rest new).at? rest'
        else t.at? (name' :: rest') := by
  rw [at?_cons, at?_cons]
  show (List.lookup _ (setEntry _ _ _)).bind _ = _
  by_cases h : name' = name
  · subst h
    rw [lookup_setEntry_self, if_pos rfl]
    rfl
  · rw [lookup_setEntry_of_ne h, if_neg h]

-- ===================================================== a file replaced

section

variable {t : Tree} {place : Place} {c : Contents}
  (h : t.contentsAt place = some c) (new : Contents)

include h

/-- What stands at a place afterwards: at the place itself the new file,
above it another directory, and everywhere else what stood there. -/
theorem at?_put (other : Place) :
    (other = place ∧ (t.put place (.file new)).at? other = some (.file new))
      ∨ (other ≠ place ∧ ∃ es es', t.at? other = some (.dir es)
        ∧ (t.put place (.file new)).at? other = some (.dir es'))
      ∨ other ≠ place ∧ (t.put place (.file new)).at? other = t.at? other := by
  induction place generalizing t other with
  | nil =>
    have ht : t = .file c := Option.some.inj (at?_of_contentsAt h)
    subst ht
    cases other with
    | nil => exact Or.inl ⟨rfl, rfl⟩
    | cons name' rest' =>
      exact Or.inr (Or.inr ⟨List.cons_ne_nil name' rest', rfl⟩)
  | cons name rest ih =>
    have hat := at?_of_contentsAt h
    rw [at?_cons] at hat
    obtain ⟨below, hlookup, hbelow⟩ := Option.bind_eq_some_iff.1 hat
    have hfile : below.contentsAt rest = some c := by
      unfold contentsAt
      rw [hbelow]
    cases other with
    | nil =>
      obtain ⟨es, rfl⟩ : ∃ es, t = .dir es := by
        have hdir := isDir_of_lookup hlookup
        cases t with
        | file c' => cases hdir
        | dir es => exact ⟨es, rfl⟩
      exact Or.inr (Or.inl
        ⟨(List.cons_ne_nil name rest).symm, es, _, rfl, rfl⟩)
    | cons name' rest' =>
      rw [at?_put_cons, hlookup, Option.getD_some]
      by_cases hname : name' = name
      · subst hname
        rw [if_pos rfl, at?_cons, hlookup, Option.bind_some]
        simp only [List.cons.injEq, true_and, ne_eq]
        exact ih hfile rest'
      · have hne : name' :: rest' ≠ name :: rest :=
          fun heq => hname (List.cons.inj heq).1
        rw [if_neg hname]
        exact Or.inr (Or.inr ⟨hne, rfl⟩)

/-- Every place keeps its kind. -/
theorem kindAt_put (other : Place) :
    (t.put place (.file new)).kindAt other = t.kindAt other := by
  rcases at?_put h new other with
    ⟨rfl, hput⟩ | ⟨-, es, es', hold, hput⟩ | ⟨-, hput⟩
  · rw [kindAt_of_contentsAt h]
    unfold kindAt
    rw [hput]
    rfl
  · unfold kindAt
    rw [hold, hput]
    rfl
  · unfold kindAt
    rw [hput]

/-- The replaced file holds the new contents, every other file what it
held. -/
theorem contentsAt_put (other : Place) :
    (t.put place (.file new)).contentsAt other
      = if other = place then some new else t.contentsAt other := by
  rcases at?_put h new other with
    ⟨rfl, hput⟩ | ⟨hne, es, es', hold, hput⟩ | ⟨hne, hput⟩
  · unfold contentsAt
    rw [hput, if_pos rfl]
  · rw [if_neg hne]
    unfold contentsAt
    rw [hold, hput]
  · rw [if_neg hne]
    unfold contentsAt
    rw [hput]

end

end ComponentMarkdown.Files.Tree
