/-
Replacing a file on a disk. The new file is written into the directory that
the path of the old one names and takes the name that ends it; the place it
gets is the one that the path leads to. So afterwards the same path leads to
the new text, every path leads where it led before, and every other file
holds what it held (`replaced_of_replace`).
-/
import ComponentMarkdown.Proofs.Files.Paths
import ComponentMarkdown.Proofs.Files.Tree

namespace ComponentMarkdown.Files.Disk

open Files.Path

/-- What succeeds in two steps succeeds in each. -/
theorem exists_of_bind_eq_ok {ε α β : Type} {x : Except ε α}
    {f : α → Except ε β} {b : β} (h : x >>= f = .ok b) :
    ∃ a, x = .ok a ∧ f a = .ok b := by
  cases x with
  | error e => cases h
  | ok a => exact ⟨a, rfl, h⟩

-- ========================================================= going along

/-- One part further, by the kinds of places alone. -/
theorem step_eq (d : Disk) (place : Place) (part : String) :
    d.step place part =
      match d.root.kindAt place with
      | none => .error .notFound
      | some false => .error .notDirectory
      | some true =>
        if isVoid part then .ok place
        else if part == ".." then .ok place.dropLast
        else if maxNameLength < part.utf8ByteSize then .error .nameTooLong
        else if (d.root.kindAt (place ++ [part])).isSome then
          .ok (place ++ [part])
        else .error .notFound := by
  unfold step Tree.kindAt
  rw [Tree.at?_append]
  cases d.root.at? place with
  | none => rfl
  | some t =>
    cases t with
    | file c => rfl
    | dir es =>
      have hlookup : ((some (Tree.dir es)).bind
          (Tree.at? · [part])).map Tree.isDir
          = (es.lookup part).map Tree.isDir := by
        show ((es.lookup part).bind some).map Tree.isDir = _
        rw [Option.bind_fun_some]
      rw [hlookup, Option.isSome_map]
      rfl

/-- When a step leads on, and where. -/
theorem step_eq_ok_iff {d : Disk} {place next : Place} {part : String} :
    d.step place part = .ok next
      ↔ d.root.kindAt place = some true
        ∧ (isVoid part = true ∧ place = next
          ∨ isVoid part = false ∧ part = ".." ∧ place.dropLast = next
          ∨ isVoid part = false ∧ part ≠ ".."
            ∧ part.utf8ByteSize ≤ maxNameLength
            ∧ (d.root.kindAt (place ++ [part])).isSome = true
            ∧ place ++ [part] = next) := by
  rw [step_eq]
  cases hkind : d.root.kindAt place with
  | none => simp
  | some dir =>
    cases dir with
    | false => simp
    | true =>
      cases hvoid : isVoid part with
      | true => simp
      | false =>
        by_cases hup : part = ".."
        · simp [hup]
        · by_cases hlong : maxNameLength < part.utf8ByteSize
          · simp [hup, hlong, Nat.not_le.2 hlong]
          · cases d.root.kindAt (place ++ [part]) <;>
              simp [hup, hlong, Nat.le_of_not_lt hlong]

/-- What a step that leads on leads to. -/
theorem step_eq_ok {d : Disk} {place next : Place} {part : String}
    (h : d.step place part = .ok next) :
    d.root.kindAt place = some true
      ∧ (isVoid part = true ∧ next = place
        ∨ isVoid part = false ∧ part = ".." ∧ next = place.dropLast
        ∨ isVoid part = false ∧ next = place ++ [part]) := by
  obtain ⟨hkind, hnext⟩ := step_eq_ok_iff.1 h
  refine ⟨hkind, ?_⟩
  rcases hnext with ⟨hvoid, rfl⟩ | ⟨hvoid, hup, rfl⟩ | ⟨hvoid, -, -, -, rfl⟩
  · exact Or.inl ⟨hvoid, rfl⟩
  · exact Or.inr (Or.inl ⟨hvoid, hup, rfl⟩)
  · exact Or.inr (Or.inr ⟨hvoid, rfl⟩)

/-- What leads on leads on without the parts that name nothing. -/
theorem foldlM_step_named {d : Disk} {parts : List String}
    {place last : Place} (h : parts.foldlM d.step place = .ok last) :
    (named parts).foldlM d.step place = .ok last := by
  induction parts generalizing place with
  | nil => exact h
  | cons part rest ih =>
    rw [List.foldlM_cons] at h
    obtain ⟨next, hstep, hrest⟩ := exists_of_bind_eq_ok h
    obtain ⟨-, hnext⟩ := step_eq_ok hstep
    cases hvoid : isVoid part with
    | true =>
      rcases hnext with ⟨-, rfl⟩ | ⟨hsolid, -⟩ | ⟨hsolid, -⟩
      · rw [named_cons_of_isVoid hvoid]
        exact ih hrest
      · rw [hvoid] at hsolid
        cases hsolid
      · rw [hvoid] at hsolid
        cases hsolid
    | false =>
      rw [named_cons_of_solid hvoid, List.foldlM_cons, hstep]
      exact ih hrest

/-- What leads to a directory starts at one. -/
theorem kindAt_of_foldlM_step {d : Disk} {parts : List String}
    {place last : Place} (h : parts.foldlM d.step place = .ok last)
    (hlast : d.root.kindAt last = some true) :
    d.root.kindAt place = some true := by
  cases parts with
  | nil =>
    cases h
    exact hlast
  | cons part rest =>
    obtain ⟨next, hstep, -⟩ := exists_of_bind_eq_ok h
    exact (step_eq_ok hstep).1

/-- What leads to a directory leads there also by parts that name nothing in
between. -/
theorem foldlM_step_of_named {d : Disk} {parts : List String}
    {place last : Place} (h : (named parts).foldlM d.step place = .ok last)
    (hlast : d.root.kindAt last = some true) :
    parts.foldlM d.step place = .ok last := by
  induction parts generalizing place with
  | nil => exact h
  | cons part rest ih =>
    rw [List.foldlM_cons]
    cases hvoid : isVoid part with
    | true =>
      rw [named_cons_of_isVoid hvoid] at h
      have hstep : d.step place part = .ok place := by
        rw [step_eq, kindAt_of_foldlM_step h hlast]
        exact if_pos hvoid
      rw [hstep]
      exact ih h
    | false =>
      rw [named_cons_of_solid hvoid] at h
      obtain ⟨next, hstep, hrest⟩ := exists_of_bind_eq_ok h
      rw [hstep]
      exact ih hrest

/-- Where every place keeps its kind, and there may be more, what leads on
leads where it led. -/
theorem foldlM_step_mono {d d' : Disk}
    (h : ∀ place kind, d.root.kindAt place = some kind →
      d'.root.kindAt place = some kind)
    {parts : List String} {place last : Place}
    (hsteps : parts.foldlM d.step place = .ok last) :
    parts.foldlM d'.step place = .ok last := by
  have hstep {place next : Place} {part : String}
      (hnext : d.step place part = .ok next) :
      d'.step place part = .ok next := by
    obtain ⟨hdir, hcases⟩ := step_eq_ok_iff.1 hnext
    refine step_eq_ok_iff.2 ⟨h _ _ hdir, ?_⟩
    rcases hcases with hvoid | hup | ⟨hvoid, hup, hlength, hsome, hnext⟩
    · exact Or.inl hvoid
    · exact Or.inr (Or.inl hup)
    · obtain ⟨kind, hkind⟩ := Option.isSome_iff_exists.1 hsome
      have hsome' := Option.isSome_iff_exists.2 ⟨kind, h _ _ hkind⟩
      exact Or.inr (Or.inr ⟨hvoid, hup, hlength, hsome', hnext⟩)
  induction parts generalizing place with
  | nil => exact hsteps
  | cons part rest ih =>
    obtain ⟨next, hfirst, hrest⟩ := exists_of_bind_eq_ok hsteps
    rw [List.foldlM_cons, hstep hfirst]
    exact ih hrest

-- =============================================================== paths

/-- Where the following of a path starts. -/
def origin (d : Disk) (path : String) : Place :=
  if isAbsolute path then [] else d.workingDir

/-- A path that leads somewhere leads there by its parts. -/
theorem foldlM_of_find {d : Disk} {path : String} {place : Place}
    (h : d.find path = .ok place) :
    (parts path).foldlM d.step (d.origin path) = .ok place := by
  unfold find at h
  split at h
  · cases h
  · split at h
    · cases h
    · split at h
      · cases h
      · exact h

theorem read_eq_ok_iff {d : Disk} {path : String} {t : Text} :
    d.read path = .ok t
      ↔ ∃ place, d.find path = .ok place
        ∧ d.root.contentsAt place = some (.text t) := by
  unfold read look Tree.contentsAt
  cases d.find path with
  | error fault =>
    constructor
    · intro h
      cases h
    · rintro ⟨place, hplace, -⟩
      cases hplace
  | ok place =>
    simp only [Except.ok.injEq, exists_eq_left']
    dsimp only [Except.bind]
    cases d.root.at? place with
    | none => simp
    | some u =>
      cases u with
      | dir es => simp
      | file c => cases c <;> simp

/-- What is read, by the kinds and contents of places alone. -/
theorem read_eq (d : Disk) (path : String) :
    d.read path = (d.find path).bind fun place =>
      match d.root.kindAt place, d.root.contentsAt place with
      | none, _ => .error .notFound
      | some true, _ => .error .isDirectory
      | some false, some (.text t) => .ok t
      | some false, _ => .error .notText := by
  unfold read look Tree.kindAt Tree.contentsAt
  cases d.find path with
  | error fault => rfl
  | ok place =>
    dsimp only [Except.bind]
    cases d.root.at? place with
    | none => rfl
    | some u =>
      cases u with
      | dir entries => rfl
      | file c => cases c <;> rfl

/-- A path to a file ends with the name of the file, behind a path to the
directory. -/
theorem exists_of_find_file {d : Disk} {path : String} {place : Place}
    {c : Contents} (hfind : d.find path = .ok place)
    (hfile : d.root.contentsAt place = some c) :
    ∃ init name above, parts path = init ++ [name] ∧ isVoid name = false
      ∧ init.foldlM d.step (d.origin path) = .ok above
      ∧ place = above ++ [name] := by
  have hsteps := foldlM_of_find hfind
  obtain ⟨init, name, hparts⟩ : ∃ init name, parts path = init ++ [name] :=
    ⟨_, _, (List.dropLast_append_getLast (parts_ne_nil path)).symm⟩
  rw [hparts, List.foldlM_append] at hsteps
  obtain ⟨above, habove, hlast⟩ := exists_of_bind_eq_ok hsteps
  rw [List.foldlM_cons] at hlast
  obtain ⟨next, hstep, hnext⟩ := exists_of_bind_eq_ok hlast
  cases hnext
  obtain ⟨hdir, hnext⟩ := step_eq_ok hstep
  have hkind := Tree.kindAt_of_contentsAt hfile
  rcases hnext with ⟨-, rfl⟩ | ⟨-, -, rfl⟩ | ⟨hvoid, rfl⟩
  · -- a part that names nothing stays in the directory
    rw [hkind] at hdir
    cases hdir
  · -- above a directory stands a directory
    rw [Tree.kindAt_dropLast hdir] at hkind
    cases hkind
  · exact ⟨init, name, above, hparts, hvoid, habove, rfl⟩

-- ======================================================= replaced files

/-- Disks on which every place is of the same kind. -/
structure SameShape (d d' : Disk) : Prop where
  workingDir : d'.workingDir = d.workingDir
  kindAt : ∀ place, d'.root.kindAt place = d.root.kindAt place

/-- Every path leads where it leads on a disk of the same shape. -/
theorem SameShape.find_eq {d d' : Disk} (h : SameShape d d')
    (path : String) : d'.find path = d.find path := by
  have hstep : d'.step = d.step := by
    funext place part
    rw [step_eq, step_eq, h.kindAt, h.kindAt]
  unfold find
  rw [hstep, h.workingDir]

/-- A text is read as on a disk of the same shape on which the same is in
the one file. -/
theorem SameShape.read_eq {d d' : Disk} (h : SameShape d d') {path : String}
    (hfile : ∀ place, d.find path = .ok place →
      d'.root.contentsAt place = d.root.contentsAt place) :
    d'.read path = d.read path := by
  rw [Disk.read_eq, Disk.read_eq, h.find_eq]
  cases hfind : d.find path with
  | error fault => rfl
  | ok place =>
    dsimp only [Except.bind]
    rw [h.kindAt, hfile place hfind]

theorem SameShape.trans {a b c : Disk} (hab : SameShape a b)
    (hbc : SameShape b c) : SameShape a c where
  workingDir := hbc.workingDir.trans hab.workingDir
  kindAt place := (hbc.kindAt place).trans (hab.kindAt place)

/-- A disk on which one file has a new text and all else is as before. -/
structure Replaced (d : Disk) (place : Place) (t : Text) (d' : Disk) :
    Prop where
  shape : SameShape d d'
  contentsAt : ∀ other, d'.root.contentsAt other
    = if other = place then some (.text t) else d.root.contentsAt other

theorem look_eq_ok_iff {d : Disk} {path : String} {t : Tree} :
    d.look path = .ok t
      ↔ ∃ place, d.find path = .ok place ∧ d.root.at? place = some t := by
  unfold look
  cases d.find path with
  | error fault => simp [Except.bind]
  | ok place =>
    dsimp only [Except.bind]
    cases hat : d.root.at? place <;> simp [hat]

/-- A directory is open for a new file if its path leads to it and is not
too long. -/
theorem openFor?_eq_some_iff {d : Disk} {dir : String} {place : Place}
    {entries : List (String × Tree)} :
    d.openFor? dir = some (place, entries)
      ↔ (d.fromRoot dir).utf8ByteSize + 1 + newNameLength ≤ maxPathLength
        ∧ d.find dir = .ok place
        ∧ d.root.at? place = some (.dir entries) := by
  unfold openFor?
  dsimp only
  split
  · rename_i hlong
    simp [Nat.not_le.2 hlong]
  · rename_i hlength
    rw [Nat.not_lt] at hlength
    split
    · rename_i place' entries' hfind hlook
      obtain ⟨place'', hfind', hdir⟩ := look_eq_ok_iff.1 hlook
      rw [hfind] at hfind' ⊢
      cases hfind'
      simp only [Option.some.injEq, Prod.mk.injEq, Except.ok.injEq, hlength,
        true_and]
      constructor
      · rintro ⟨rfl, rfl⟩
        exact ⟨rfl, hdir⟩
      · rintro ⟨rfl, hdir'⟩
        rw [hdir] at hdir'
        cases hdir'
        exact ⟨rfl, rfl⟩
    · rename_i hnone
      constructor
      · intro h
        cases h
      · rintro ⟨-, hfind, hdir⟩
        exact absurd (look_eq_ok_iff.2 ⟨place, hfind, hdir⟩)
          (hnone place entries hfind)

/-- The directory that a new file for a path is put into is where the parts
in front of the last lead. -/
theorem foldlM_of_openFor? {d : Disk} {path name : String}
    {init : List String} (hparts : parts path = init ++ [name])
    (hvoid : isVoid name = false) {place : Place}
    {entries : List (String × Tree)}
    (h : d.openFor? (directoryOf path) = some (place, entries)) :
    (named init).foldlM d.step (d.origin path) = .ok place := by
  obtain ⟨habsolute, hnamed⟩ := named_directoryOf hparts hvoid
  have hsteps := foldlM_step_named (foldlM_of_find (openFor?_eq_some_iff.1 h).2.1)
  have horigin : d.origin (directoryOf path) = d.origin path := by
    unfold origin
    rw [habsolute]
  rw [hnamed, horigin] at hsteps
  exact hsteps

/-- What is done when a file is replaced: among the entries of its directory
the name that ends the path gets the new text. -/
theorem replace_eq_ok_iff {d d' : Disk} {path : String} {t : Text} :
    d.replace path t = .ok d'
      ↔ ∃ place entries, d.openFor? (directoryOf path) = some (place, entries)
        ∧ canTake path ((parts path).getLastD "") entries = true
        ∧ { d with
            root := d.root.put (place ++ [(parts path).getLastD ""])
              (.file (.text t)) } = d' := by
  unfold replace
  dsimp only
  cases hopen : d.openFor? (directoryOf path) with
  | none => simp
  | some found =>
    obtain ⟨place, entries⟩ := found
    dsimp only
    cases hcan : canTake path ((parts path).getLastD "") entries with
    | false =>
      simp only [Bool.false_eq_true, if_false, reduceCtorEq, false_iff]
      rintro ⟨place', entries', hfound, hcan', -⟩
      cases hfound
      rw [hcan] at hcan'
      cases hcan'
    | true =>
      simp only [if_true, Except.ok.injEq]
      constructor
      · rintro rfl
        exact ⟨place, entries, rfl, hcan, rfl⟩
      · rintro ⟨place', entries', hfound, -, rfl⟩
        cases hfound
        rfl

/-- A file is replaced where its path leads. -/
theorem replaced_of_replace {d d' : Disk} {path : String} {t : Text}
    (h : d.replace path t = .ok d') {place : Place} {c : Contents}
    (hfind : d.find path = .ok place)
    (hfile : d.root.contentsAt place = some c) :
    Replaced d place t d' := by
  obtain ⟨init, name, above, hparts, hvoid, habove, rfl⟩ :=
    exists_of_find_file hfind hfile
  obtain ⟨dirPlace, entries, hopen, -, rfl⟩ := replace_eq_ok_iff.1 h
  have hsteps := foldlM_of_openFor? hparts hvoid hopen
  rw [foldlM_step_named habove] at hsteps
  cases hsteps
  rw [hparts, List.getLastD_concat]
  exact ⟨⟨rfl, Tree.kindAt_put hfile _⟩, Tree.contentsAt_put hfile _⟩

end ComponentMarkdown.Files.Disk
