/-
Edits of one directory. Whatever is done to the entries of a directory is
one edit of the tree (`editAt_editAt`), so steps that undo each other can be
worked out on the entries: a new entry that is taken away again leaves none
of itself (`removeEntry_setEntry`). What is seen of an edit is in the
directory (`agree_editAt_of_not_isPrefix`), and of a file that is set there
only the file (`agree_editAt_setEntry`).
-/
import ComponentMarkdown.Proofs.Files.Tree

namespace ComponentMarkdown.Files.Tree

-- ============================================================= entries

theorem setEntry_setEntry (name : String) (t u : Tree)
    (entries : List (String × Tree)) :
    setEntry name u (setEntry name t entries) = setEntry name u entries := by
  induction entries with
  | nil => simp [setEntry]
  | cons e entries ih =>
    obtain ⟨key, old⟩ := e
    by_cases hlt : name < key
    · simp [setEntry, hlt]
    · by_cases hkey : name = key
      · subst hkey
        simp [setEntry]
      · simp only [setEntry, hlt, hkey, if_false, ih]

theorem removeEntry_of_lookup_eq_none {name : String}
    {entries : List (String × Tree)} (h : entries.lookup name = none) :
    removeEntry name entries = entries := by
  unfold removeEntry
  rw [List.filter_eq_self]
  intro e he
  exact bne_iff_ne.2 (bne_iff_ne.1 (List.lookup_eq_none_iff.1 h e he)).symm

/-- A new entry is taken away again. -/
theorem removeEntry_setEntry {name : String}
    {entries : List (String × Tree)} (h : entries.lookup name = none)
    (t : Tree) : removeEntry name (setEntry name t entries) = entries := by
  induction entries with
  | nil => simp [setEntry, removeEntry]
  | cons e entries ih =>
    obtain ⟨key, old⟩ := e
    have hself := removeEntry_of_lookup_eq_none h
    rw [List.lookup_cons] at h
    by_cases hkey : name = key
    · rw [hkey, beq_self_eq_true] at h
      cases h
    · rw [beq_false_of_ne hkey] at h
      unfold setEntry
      split
      · unfold removeEntry at hself ⊢
        rw [List.filter_cons_of_neg (by simp)]
        exact hself
      · have hrest := ih h
        unfold removeEntry at hrest ⊢
        rw [List.filter_cons_of_pos (by simpa using Ne.symm hkey), hrest]

/-- A new entry goes by its second name alone. -/
theorem renameEntry_setEntry {old : String}
    {entries : List (String × Tree)} (h : entries.lookup old = none)
    (new : String) (t : Tree) :
    renameEntry old new (setEntry old t entries) = setEntry new t entries := by
  unfold renameEntry
  rw [lookup_setEntry_self]
  dsimp only
  rw [removeEntry_setEntry h]

-- =========================================================== agreement

/-- Whether two trees have the same at a place: nothing, a directory, or a
file with the same contents. -/
def Agree (t u : Tree) (place : Place) : Prop :=
  u.kindAt place = t.kindAt place ∧ u.contentsAt place = t.contentsAt place

theorem agree_of_at?_eq {t u : Tree} {place : Place}
    (h : u.at? place = t.at? place) : Agree t u place := by
  unfold Agree kindAt contentsAt
  rw [h]
  exact ⟨rfl, rfl⟩

-- =============================================================== edits

theorem editAt_cons (t : Tree) (f : List (String × Tree) → List (String × Tree))
    (name : String) (rest : Place) :
    t.editAt f (name :: rest)
      = .dir (setEntry name
        (((t.entries.lookup name).getD empty).editAt f rest) t.entries) := rfl

/-- Putting a tree into a directory sets one of its entries. -/
theorem put_concat (t new : Tree) (place : Place) (name : String) :
    t.put (place ++ [name]) new = t.editAt (setEntry name new) place := by
  induction place generalizing t with
  | nil => rfl
  | cons first rest ih => rw [List.cons_append, put, ih, editAt_cons]

/-- One edit after another. -/
theorem editAt_editAt (t : Tree)
    (f g : List (String × Tree) → List (String × Tree)) (place : Place) :
    (t.editAt f place).editAt g place = t.editAt (g ∘ f) place := by
  induction place generalizing t with
  | nil => rfl
  | cons name rest ih =>
    rw [editAt_cons t f, editAt_cons t, editAt_cons]
    show Tree.dir (setEntry name (((List.lookup name (setEntry name _
      t.entries)).getD empty).editAt g rest) (setEntry name _ t.entries)) = _
    rw [lookup_setEntry_self, Option.getD_some, setEntry_setEntry, ih]

section

variable {t : Tree} {place : Place} {entries : List (String × Tree)}
  {f : List (String × Tree) → List (String × Tree)}
  (h : t.at? place = some (.dir entries))

include h

/-- An edit is what it does to the entries that are there. -/
theorem editAt_congr {g : List (String × Tree) → List (String × Tree)}
    (hfg : f entries = g entries) : t.editAt f place = t.editAt g place := by
  induction place generalizing t with
  | nil =>
    cases h
    exact congrArg Tree.dir hfg
  | cons name rest ih =>
    rw [at?_cons] at h
    obtain ⟨below, hlookup, hbelow⟩ := Option.bind_eq_some_iff.1 h
    rw [editAt_cons, editAt_cons, hlookup, Option.getD_some, ih hbelow]

/-- Behind an edit the directory has its new entries. -/
theorem at?_editAt_append (below : Place) :
    (t.editAt f place).at? (place ++ below)
      = (Tree.dir (f entries)).at? below := by
  induction place generalizing t with
  | nil =>
    cases h
    rfl
  | cons name rest ih =>
    rw [at?_cons] at h
    obtain ⟨child, hlookup, hchild⟩ := Option.bind_eq_some_iff.1 h
    rw [editAt_cons, hlookup, Option.getD_some, List.cons_append, at?_cons]
    show ((setEntry name _ t.entries).lookup name).bind _ = _
    rw [lookup_setEntry_self, Option.bind_some, ih hchild]

/-- Outside the directory stands what stood there. Above it that is another
directory. -/
theorem agree_editAt_of_not_isPrefix {other : Place}
    (hother : ¬ place <+: other) : Agree t (t.editAt f place) other := by
  induction place generalizing t other with
  | nil => exact absurd (List.nil_prefix) hother
  | cons name rest ih =>
    rw [at?_cons] at h
    obtain ⟨below, hlookup, hbelow⟩ := Option.bind_eq_some_iff.1 h
    cases other with
    | nil =>
      cases t with
      | file c => cases hlookup
      | dir es => exact ⟨rfl, rfl⟩
    | cons name' rest' =>
      have hat : (t.editAt f (name :: rest)).at? (name' :: rest')
          = ((setEntry name (below.editAt f rest) t.entries).lookup name').bind
            (at? · rest') := by
        rw [editAt_cons, hlookup]
        rfl
      by_cases hname : name' = name
      · subst hname
        have hrest : ¬ rest <+: rest' := fun hprefix =>
          hother (List.cons_prefix_cons.2 ⟨rfl, hprefix⟩)
        obtain ⟨hkind, hcontents⟩ := ih hbelow hrest
        rw [lookup_setEntry_self, Option.bind_some] at hat
        unfold Agree kindAt contentsAt
        rw [hat, at?_cons, hlookup, Option.bind_some]
        exact ⟨hkind, hcontents⟩
      · rw [lookup_setEntry_of_ne hname] at hat
        exact agree_of_at?_eq hat

/-- An edit that leaves the entries leaves everything. -/
theorem agree_editAt_of_eq (hf : f entries = entries) (other : Place) :
    Agree t (t.editAt f place) other := by
  by_cases hother : place <+: other
  · obtain ⟨below, rfl⟩ := hother
    refine agree_of_at?_eq ?_
    rw [at?_editAt_append h, hf, at?_append, h, Option.bind_some]
  · exact agree_editAt_of_not_isPrefix h hother

/-- A file set among the entries, where no directory has its name, is all
that changes. -/
theorem agree_editAt_setEntry {name : String}
    (hname : (entries.lookup name).any isDir = false) (c : Contents)
    {other : Place} (hother : other ≠ place ++ [name]) :
    Agree t (t.editAt (setEntry name (.file c)) place) other := by
  by_cases hbelow : place <+: other
  · obtain ⟨below, rfl⟩ := hbelow
    have hold : t.at? (place ++ below) = (Tree.dir entries).at? below := by
      rw [at?_append, h, Option.bind_some]
    have hnew := at?_editAt_append (f := setEntry name (.file c)) h below
    cases below with
    | nil =>
      unfold Agree kindAt contentsAt
      rw [hold, hnew]
      exact ⟨rfl, rfl⟩
    | cons name' rest =>
      refine agree_of_at?_eq ?_
      rw [hold, hnew, at?_cons, at?_cons]
      show ((setEntry name _ entries).lookup name').bind _
        = (entries.lookup name').bind _
      by_cases heq : name' = name
      · subst heq
        cases rest with
        | nil => exact absurd rfl hother
        | cons first more =>
          -- below a file there is nothing, neither before nor behind
          rw [lookup_setEntry_self]
          cases hlookup : entries.lookup name' with
          | none => rfl
          | some old =>
            rw [hlookup] at hname
            cases old with
            | dir es => cases hname
            | file c' => rfl
      · rw [lookup_setEntry_of_ne heq]
  · exact agree_editAt_of_not_isPrefix h hbelow

end

end ComponentMarkdown.Files.Tree
