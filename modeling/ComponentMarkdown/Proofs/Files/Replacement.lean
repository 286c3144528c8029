/-
A file replaced is a file replaced or a disk left alone. If all goes well
the path leads to the new text and nothing else is another
(`sets_of_replace`), also where there was no file before. Taken step by step
on a host that may refuse any of the steps it comes to the same or to
nothing: a new file that did not get its place leaves no trace
(`Host.replace_cases`). Where no step is refused it is replaced if it can be
at all (`Host.replace_of_willing`).

Neither way hangs on what other files hold, only on which files and
directories there are (`Access.Lawful`).
-/
import ComponentMarkdown.Files.Host
import ComponentMarkdown.Proofs.Files.Disk
import ComponentMarkdown.Proofs.Files.Edits

namespace ComponentMarkdown.Files

open Files.Path

-- ======================================================= disks compared

namespace Disk

/-- Disks that have the same everywhere. -/
structure Alike (d d' : Disk) : Prop where
  workingDir : d'.workingDir = d.workingDir
  agree : ∀ place, Tree.Agree d.root d'.root place

theorem Alike.refl (d : Disk) : Alike d d := ⟨rfl, fun _ => ⟨rfl, rfl⟩⟩

theorem Alike.shape {d d' : Disk} (h : Alike d d') : SameShape d d' :=
  ⟨h.workingDir, fun place => (h.agree place).1⟩

theorem SameShape.symm {d d' : Disk} (h : SameShape d d') : SameShape d' d :=
  ⟨h.workingDir.symm, fun place => (h.kindAt place).symm⟩

/-- A disk on which one path, maybe a new one, leads to a file with a new
text, and all else is as before. -/
structure Sets (d : Disk) (path : String) (t : Text) (d' : Disk) : Prop where
  workingDir : d'.workingDir = d.workingDir
  file : ∃ place, d'.find path = .ok place
    ∧ d'.root.contentsAt place = some (.text t)
    ∧ ∀ other, other ≠ place → Tree.Agree d.root d'.root other

-- ======================================================== a file is set

variable {d d' : Disk} {path name : String} {t : Text} {place : Place}
  {entries : List (String × Tree)} {init : List String}

theorem setFile_eq_put (d : Disk) (place : Place) (name : String)
    (c : Contents) :
    d.setFile place name c
      = { d with root := d.root.put (place ++ [name]) (.file c) } := by
  rw [Tree.put_concat]
  rfl

/-- A file that is set is all that changes, unless a directory has its
name. -/
theorem agree_setFile (hdir : d.root.at? place = some (.dir entries))
    (hname : (entries.lookup name).any Tree.isDir = false) (c : Contents)
    {other : Place} (hother : other ≠ place ++ [name]) :
    Tree.Agree d.root (d.setFile place name c).root other :=
  Tree.agree_editAt_setEntry hdir hname c hother

theorem contentsAt_setFile (hdir : d.root.at? place = some (.dir entries))
    (c : Contents) :
    (d.setFile place name c).root.contentsAt (place ++ [name]) = some c := by
  have hfile : (d.setFile place name c).root.at? (place ++ [name])
      = some (.file c) := by
    refine (Tree.at?_editAt_append hdir _).trans ?_
    show (List.lookup name (Tree.setEntry name _ entries)).bind _ = _
    rw [Tree.lookup_setEntry_self]
    rfl
  unfold Tree.contentsAt
  rw [hfile]

/-- What there is stays of its kind where a file is set. -/
theorem kindAt_setFile (hdir : d.root.at? place = some (.dir entries))
    (hname : (entries.lookup name).any Tree.isDir = false) (c : Contents)
    {other : Place} {kind : Bool} (h : d.root.kindAt other = some kind) :
    (d.setFile place name c).root.kindAt other = some kind := by
  by_cases hother : other = place ++ [name]
  · subst hother
    rw [Tree.kindAt_of_contentsAt (contentsAt_setFile hdir c)]
    rw [Tree.kindAt_concat hdir] at h
    obtain ⟨old, hold, rfl⟩ := Option.map_eq_some_iff.1 h
    rw [hold] at hname
    exact congrArg some hname.symm
  · rw [(agree_setFile hdir hname c hother).1, h]

theorem canTake_iff : canTake path name entries = true
    ↔ path.utf8ByteSize ≤ maxPathLength ∧ isVoid name = false ∧ name ≠ ".."
      ∧ '\x00' ∉ name.toList ∧ name.utf8ByteSize ≤ maxNameLength
      ∧ (entries.lookup name).any Tree.isDir = false := by
  unfold canTake
  simp [and_assoc]

/-- A path that leads anywhere does not hold the character that ends
names. -/
theorem not_mem_of_find {dir : String} (h : d.find dir = .ok place) :
    '\x00' ∉ dir.toList := by
  unfold find at h
  split at h
  · cases h
  · split at h
    · cases h
    · rename_i hcontains
      exact fun hmem => hcontains (List.contains_iff_mem.2 hmem)

/-- A path leads where its parts lead, if it is one that can be followed. -/
theorem find_of_foldlM (hne : path ≠ "") (hended : '\x00' ∉ path.toList)
    (hlength : path.utf8ByteSize ≤ maxPathLength)
    (h : (parts path).foldlM d.step (d.origin path) = .ok place) :
    d.find path = .ok place := by
  unfold find
  rw [if_neg (mt beq_iff_eq.1 hne), if_neg (mt List.contains_iff_mem.1 hended),
    if_neg (Nat.not_lt.2 hlength)]
  exact h

section

variable (hparts : parts path = init ++ [name])
  (hopen : d.openFor? (directoryOf path) = some (place, entries))
  (hcan : canTake path name entries = true)

include hparts hopen hcan

/-- A path can be followed if its directory and its name can. -/
theorem not_mem_of_canTake : '\x00' ∉ path.toList := by
  obtain ⟨-, hvoid, -, hended, -, -⟩ := canTake_iff.1 hcan
  have hnamed := (named_directoryOf hparts hvoid).2
  rw [mem_iff_mem_named (by decide) (by decide), hparts, named_append]
  rintro ⟨part, hpart, hmem⟩
  rcases List.mem_append.1 hpart with hpart | hpart
  · rw [← hnamed] at hpart
    exact not_mem_of_find (openFor?_eq_some_iff.1 hopen).2.1
      ((mem_iff_mem_named (by decide) (by decide) _).2 ⟨part, hpart, hmem⟩)
  · rw [named_cons_of_solid hvoid] at hpart
    cases List.mem_singleton.1 hpart
    exact hended hmem

/-- The path of a file that was set leads to it. -/
theorem find_setFile (c : Contents) :
    (d.setFile place name c).find path = .ok (place ++ [name]) := by
  obtain ⟨hlength, hvoid, hup, -, hname, hfree⟩ := canTake_iff.1 hcan
  obtain ⟨-, -, hdir⟩ := openFor?_eq_some_iff.1 hopen
  have hkind := Tree.kindAt_of_dir hdir
  have hkeeps : ∀ other kind, d.root.kindAt other = some kind →
      (d.setFile place name c).root.kindAt other = some kind :=
    fun _ _ => kindAt_setFile hdir hfree c
  have hinit := foldlM_step_mono hkeeps
    (foldlM_step_of_named (foldlM_of_openFor? hparts hvoid hopen) hkind)
  have hlast : (d.setFile place name c).step place name
      = .ok (place ++ [name]) := by
    refine step_eq_ok_iff.2 ⟨hkeeps _ _ hkind,
      Or.inr (Or.inr ⟨hvoid, hup, hname, ?_, rfl⟩)⟩
    rw [Tree.kindAt_of_contentsAt (contentsAt_setFile hdir c)]
    rfl
  have hne : path ≠ "" := by
    rintro rfl
    have hlast : [] ++ [""] = init ++ [name] := hparts
    obtain ⟨-, hname⟩ := List.append_inj' hlast rfl
    cases hname
    exact absurd hvoid (by decide)
  refine find_of_foldlM hne (not_mem_of_canTake hparts hopen hcan) hlength ?_
  have horigin : (d.setFile place name c).origin path = d.origin path := rfl
  rw [hparts, List.foldlM_append, horigin, hinit]
  show [name].foldlM (d.setFile place name c).step place = _
  rw [List.foldlM_cons, hlast]
  rfl

end

/-- A replaced file is the one thing that is set, also if it is new. -/
theorem sets_of_replace (h : d.replace path t = .ok d') :
    Sets d path t d' := by
  obtain ⟨place, entries, hopen, hcan, rfl⟩ := replace_eq_ok_iff.1 h
  obtain ⟨init, name, hparts⟩ : ∃ init name, parts path = init ++ [name] :=
    ⟨_, _, (List.dropLast_append_getLast (parts_ne_nil path)).symm⟩
  rw [hparts, List.getLastD_concat] at hcan ⊢
  obtain ⟨-, -, hdir⟩ := openFor?_eq_some_iff.1 hopen
  obtain ⟨-, -, -, -, -, hfree⟩ := canTake_iff.1 hcan
  rw [← setFile_eq_put]
  exact ⟨rfl, place ++ [name], find_setFile hparts hopen hcan _,
    contentsAt_setFile hdir _, fun _ => agree_setFile hdir hfree _⟩

-- ========================================================= step by step

theorem edit_edit (d : Disk) (place : Place)
    (f g : List (String × Tree) → List (String × Tree)) :
    (d.edit place f).edit place g = d.edit place (g ∘ f) := by
  unfold edit
  rw [Tree.editAt_editAt]

/-- What a file held before it was written is lost. -/
theorem setFile_setFile (d : Disk) (place : Place) (name : String)
    (c c' : Contents) :
    (d.setFile place name c).setFile place name c'
      = d.setFile place name c' := by
  unfold setFile
  rw [edit_edit]
  congr 1
  funext entries
  exact Tree.setEntry_setEntry _ _ _ _

section

variable {new : String} (hdir : d.root.at? place = some (.dir entries))
  (hnew : entries.lookup new = none) (c : Contents)

include hdir hnew

/-- A new file that is removed leaves all as it was. -/
theorem alike_removeFile_setFile :
    Alike d ((d.setFile place new c).removeFile place new) := by
  have hedit : (d.setFile place new c).removeFile place new
      = d.edit place (Tree.removeEntry new ∘ Tree.setEntry new (.file c)) :=
    edit_edit _ _ _ _
  rw [hedit]
  exact ⟨rfl, Tree.agree_editAt_of_eq hdir (Tree.removeEntry_setEntry hnew _)⟩

/-- A new file that takes another name might have had it at once. -/
theorem renameFile_setFile (name : String) :
    (d.setFile place new c).renameFile place new name
      = d.setFile place name c := by
  have hedit : (d.setFile place new c).renameFile place new name
      = d.edit place (Tree.renameEntry new name ∘ Tree.setEntry new (.file c))
      := edit_edit _ _ _ _
  rw [hedit]
  unfold edit setFile
  rw [Tree.editAt_congr hdir (Tree.renameEntry_setEntry hnew name _)]
  rfl

end

/-- On disks of one shape the same directories take new files, and the same
names in them can be taken. -/
theorem SameShape.openFor? (h : SameShape d d') {dir : String}
    (hopen : d.openFor? dir = some (place, entries)) :
    ∃ entries', d'.openFor? dir = some (place, entries')
      ∧ ∀ path name, canTake path name entries' = canTake path name entries := by
  obtain ⟨hlength, hfind, hdir⟩ := openFor?_eq_some_iff.1 hopen
  obtain ⟨entries', hdir'⟩ := Tree.exists_of_kindAt
    ((h.kindAt place).trans (Tree.kindAt_of_dir hdir))
  have hroot : d'.fromRoot dir = d.fromRoot dir := by
    unfold fromRoot workingPath
    rw [h.workingDir]
  refine ⟨entries', openFor?_eq_some_iff.2
    ⟨hroot ▸ hlength, (h.find_eq dir).trans hfind, hdir'⟩, fun path name => ?_⟩
  have hlookup := h.kindAt (place ++ [name])
  rw [Tree.kindAt_concat hdir', Tree.kindAt_concat hdir] at hlookup
  have hany (found? : Option Tree) :
      found?.any Tree.isDir = (found?.map Tree.isDir).any id := by
    cases found? <;> rfl
  unfold canTake
  rw [hany, hany, hlookup]

/-- On disks of one shape a directory is open for new files or not, and the
same names in it can be taken. -/
theorem SameShape.openFor?_cases (h : SameShape d d') (dir : String) :
    d.openFor? dir = none ∧ d'.openFor? dir = none
      ∨ ∃ place entries entries', d.openFor? dir = some (place, entries)
        ∧ d'.openFor? dir = some (place, entries')
        ∧ ∀ path name,
          canTake path name entries' = canTake path name entries := by
  cases hopen : d.openFor? dir with
  | some found =>
    obtain ⟨entries', hopen', htake⟩ := h.openFor? hopen
    exact Or.inr ⟨_, _, entries', rfl, hopen', htake⟩
  | none =>
    refine Or.inl ⟨rfl, Option.eq_none_iff_forall_ne_some.2 ?_⟩
    rintro ⟨place, entries⟩ hopen'
    obtain ⟨entries', hopen'', -⟩ := h.symm.openFor? hopen'
    rw [hopen] at hopen''
    cases hopen''

end Disk

-- ============================================================== access

/-- Access to files as it may be relied on. What is read is there. A file is
replaced as on the disk alone, or all stays as it was. Whether it can be
read or replaced depends on its own contents and on which files and
directories there are. -/
structure Access.Lawful (a : Access) : Prop where
  read_eq_ok : ∀ {d : Disk} {path : String} {t : Text},
    a.read d path = .ok t → d.read path = .ok t
  read_congr : ∀ {d d' : Disk} {path : String}, d.SameShape d' →
    (∀ place, d.find path = .ok place →
      d'.root.contentsAt place = d.root.contentsAt place) →
    a.read d' path = a.read d path
  replace_congr : ∀ {d d' : Disk}, d.SameShape d' → ∀ (path : String)
    (t : Text), (a.replace d' path t).2 = (a.replace d path t).2
  replace_cases : ∀ (d : Disk) (path : String) (t : Text),
    (a.replace d path t).2 = none
        ∧ d.replace path t = .ok (a.replace d path t).1
      ∨ (a.replace d path t).2 ≠ none
        ∧ d.Alike (a.replace d path t).1

/-- A disk alone takes or refuses a file without a trace. -/
theorem Disk.access_lawful : Disk.access.Lawful where
  read_eq_ok h := h
  read_congr hshape hfile := hshape.read_eq hfile
  replace_congr := by
    intro d d' hshape path t
    unfold Disk.access Disk.replace
    dsimp only
    rcases hshape.openFor?_cases (Disk.directoryOf path) with
      ⟨hopen, hopen'⟩ | ⟨place, entries, entries', hopen, hopen', htake⟩
    · rw [hopen, hopen']
    · rw [hopen, hopen']
      dsimp only
      rw [htake]
      cases Disk.canTake path ((parts path).getLastD "") entries <;> rfl
  replace_cases d path t := by
    unfold Disk.access
    dsimp only
    cases d.replace path t with
    | ok d' => exact Or.inl ⟨rfl, rfl⟩
    | error fault => exact Or.inr ⟨Option.some_ne_none _, .refl d⟩

/-- Whatever a host refuses, a file is replaced as on the disk alone, or all
stays as it was. -/
theorem Host.replace_cases (h : Host) (d : Disk) (path : String) (t : Text) :
    (h.replace d path t).2 = none
        ∧ d.replace path t = .ok (h.replace d path t).1
      ∨ (h.replace d path t).2 ≠ none
        ∧ Disk.Alike d (h.replace d path t).1 := by
  unfold Host.replace
  dsimp only
  split
  · exact Or.inr ⟨Option.some_ne_none _, .refl d⟩
  · rename_i place entries hopen
    obtain ⟨-, -, hdir⟩ := Disk.openFor?_eq_some_iff.1 hopen
    have hfree := h.newName_free path entries
    split
    · exact Or.inr ⟨Option.some_ne_none _, .refl d⟩
    · split
      · rw [Disk.setFile_setFile]
        exact Or.inr ⟨Option.some_ne_none _,
          Disk.alike_removeFile_setFile hdir hfree _⟩
      · rw [Disk.setFile_setFile]
        split
        · rename_i htake
          rw [Disk.renameFile_setFile hdir hfree, Disk.setFile_eq_put]
          exact Or.inl ⟨rfl, Disk.replace_eq_ok_iff.2
            ⟨place, entries, hopen, (Bool.and_eq_true_iff.1 htake).1, rfl⟩⟩
        · exact Or.inr ⟨Option.some_ne_none _,
            Disk.alike_removeFile_setFile hdir hfree _⟩

/-- Where a host refuses nothing a file is replaced if it can be on the disk
alone. -/
theorem Host.replace_of_willing {h : Host} {path : String} {t : Text}
    (hnew : h.refusesNew path = false) (hends : h.endsEarly? path t = none)
    (hrename : h.refusesRename path = false) (d : Disk) :
    (h.replace d path t).2 = (Disk.access.replace d path t).2 := by
  unfold Host.replace Disk.access Disk.replace
  dsimp only
  rw [hnew, hends, hrename]
  cases d.openFor? (Disk.directoryOf path) with
  | none => rfl
  | some found =>
    obtain ⟨place, entries⟩ := found
    dsimp only
    cases Disk.canTake path ((Path.parts path).getLastD "") entries <;> rfl

theorem Host.access_lawful (h : Host) : h.access.Lawful where
  read_eq_ok := by
    intro d path t hread
    unfold Host.access Host.read at hread
    dsimp only at hread
    split at hread
    · cases hread
    · exact hread
  read_congr := by
    intro d d' path hshape hfile
    unfold Host.access Host.read
    dsimp only
    rw [hshape.read_eq hfile]
  replace_congr := by
    intro d d' hshape path t
    unfold Host.access Host.replace
    dsimp only
    rcases hshape.openFor?_cases (Disk.directoryOf path) with
      ⟨hopen, hopen'⟩ | ⟨place, entries, entries', hopen, hopen', htake⟩
    · rw [hopen, hopen']
    · rw [hopen, hopen']
      dsimp only
      rw [htake]
      cases h.refusesNew path with
      | true => rfl
      | false =>
        cases h.endsEarly? path t with
        | some part => rfl
        | none =>
          cases Disk.canTake path ((parts path).getLastD "") entries with
          | false => rfl
          | true => cases h.refusesRename path <;> rfl
  replace_cases := h.replace_cases

end ComponentMarkdown.Files
