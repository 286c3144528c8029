/-
What a conversion in place makes of a disk: the files on its list hold what
the transformer makes of them, and all else is as it was (`Converted`).

Each document is read when its turn comes, from a disk on which those before
it are converted already. As long as the paths lead to different files that
makes no difference: a replaced file moves no path and touches no other
file, so the documents still to come are found as they were at the start.
-/
import ComponentMarkdown.Proofs.Cli.Documents

namespace ComponentMarkdown.Cli

open Files

/-- A disk on which the files that some paths lead to are converted and all
else is as before. -/
structure Converted (t : Transformer) (d : Disk) (paths : List String)
    (d' : Disk) : Prop where
  shape : d.SameShape d'
  converted : ∀ path ∈ paths, ∀ place, d.find path = .ok place →
    d'.root.contentsAt place = some (.text (newText t d path))
  kept : ∀ place, (∀ path ∈ paths, d.find path ≠ .ok place) →
    d'.root.contentsAt place = d.root.contentsAt place

variable {t : Transformer} {d d₁ d' : Disk}

theorem converted_nil : Converted t d [] d where
  shape := ⟨rfl, fun _ => rfl⟩
  converted _ h := absurd h List.not_mem_nil
  kept _ _ := rfl

/-- Where all that differs is one converted file, the same is read behind
another path. -/
theorem Converted.read_eq {path other : String}
    (h : Converted t d [path] d₁) (hne : d.find path ≠ d.find other) :
    d₁.read other = d.read other :=
  h.shape.read_eq fun place hplace =>
    h.kept place (List.forall_mem_singleton.2 (hplace ▸ hne))

/-- One document converted, then the others. -/
theorem Converted.cons {path : String} {rest : List String}
    (hfirst : Converted t d [path] d₁)
    (hne : ∀ other ∈ rest, d.find path ≠ d.find other)
    (hrest : Converted t d₁ rest d') : Converted t d (path :: rest) d' := by
  have hfind := hfirst.shape.find_eq
  have hsame : ∀ other ∈ rest, newText t d₁ other = newText t d other := by
    intro other hother
    unfold newText textOf
    rw [hfirst.read_eq (hne other hother)]
  refine ⟨hfirst.shape.trans hrest.shape, ?_, ?_⟩
  · intro other hother place hplace
    rcases List.mem_cons.1 hother with rfl | hother
    · have hkept := hrest.kept place fun later hlater heq => by
        rw [hfind] at heq
        exact hne later hlater (hplace.trans heq.symm)
      rw [hkept]
      exact hfirst.converted other List.mem_cons_self place hplace
    · rw [← hsame other hother]
      exact hrest.converted other hother place ((hfind other).trans hplace)
  · intro place hplace
    obtain ⟨hpath, hlater⟩ := List.forall_mem_cons.1 hplace
    rw [hrest.kept place fun later hmem => (hfind later) ▸ hlater later hmem]
    exact hfirst.kept place (List.forall_mem_singleton.2 hpath)

/-- A replaced file is converted. -/
theorem Converted.of_replaced {path : String} {place : Place}
    (hfind : d.find path = .ok place)
    (h : d.Replaced place (newText t d path) d') :
    Converted t d [path] d' where
  shape := h.shape
  converted := by
    refine List.forall_mem_singleton.2 fun other hother => ?_
    rw [hfind] at hother
    cases hother
    rw [h.contentsAt, if_pos rfl]
  kept other hother := by
    have hne : other ≠ place := by
      rintro rfl
      exact List.forall_mem_singleton.1 hother hfind
    rw [h.contentsAt, if_neg hne]

/-- So is a text that stays as it is. -/
theorem Converted.of_keeps {path : String} (hread : IsText d path)
    (h : newText t d path = textOf d path) : Converted t d [path] d where
  shape := ⟨rfl, fun _ => rfl⟩
  converted := by
    refine List.forall_mem_singleton.2 fun place hfind => ?_
    rw [h]
    exact contentsAt_of_isText hread hfind
  kept _ _ := rfl

/-- Behind one document its file is converted. -/
theorem converted_one {m : ConvertMode} (hm : m.replaces = true)
    {setup : Setup} {path : String} {s s' : Session} {changed : Bool}
    (hread : IsText s.disk path)
    (h : m.one Disk.access setup t path s = (s', .ok changed)) :
    Converted t s.disk [path] s'.disk := by
  rw [ConvertMode.one_eq hread, hm, Bool.and_true] at h
  split at h
  · split at h
    · rename_i d hreplace
      cases h
      obtain ⟨place, hfind, hfile⟩ :=
        Disk.read_eq_ok_iff.1 (read_of_isText hread)
      exact .of_replaced hfind (Disk.replaced_of_replace hreplace hfind hfile)
    · cases h
  · rename_i hchange
    cases h
    exact .of_keeps hread (newText_of_keeps (Bool.not_eq_true _ ▸ hchange))

/-- A conversion in place that does not fail converts all files on its
list and nothing else. -/
theorem converted_all {m : ConvertMode} (hm : m.replaces = true)
    {setup : Setup} {paths : List String} {s s' : Session} {count : Nat}
    (hread : ∀ path ∈ paths, IsText s.disk path)
    (hne : paths.Pairwise fun a b => s.disk.find a ≠ s.disk.find b)
    (h : m.all Disk.access setup t paths s = (s', .ok count)) :
    Converted t s.disk paths s'.disk := by
  induction paths generalizing s count with
  | nil =>
    cases h
    exact converted_nil
  | cons path rest ih =>
    obtain ⟨hpath, hrest⟩ := List.forall_mem_cons.1 hread
    obtain ⟨hfirst, hlater⟩ := List.pairwise_cons.1 hne
    unfold ConvertMode.all at h
    split at h
    · cases h
    · rename_i s₁ changed hone
      have hconverted := converted_one hm hpath hone
      have hfind := hconverted.shape.find_eq
      have hrest₁ : ∀ other ∈ rest, IsText s₁.disk other :=
        fun other hother => ⟨_, (hconverted.read_eq (hfirst other hother)).trans
          (read_of_isText (hrest other hother))⟩
      have hlater₁ : rest.Pairwise
          fun a b => s₁.disk.find a ≠ s₁.disk.find b := by
        simpa only [hfind] using hlater
      cases hall : m.all Disk.access setup t rest s₁ with
      | mk s₂ result =>
        rw [hall] at h
        cases result with
        | error failure => cases h
        | ok n =>
          cases h
          exact hconverted.cons hfirst (ih hrest₁ hlater₁ hall)

end ComponentMarkdown.Cli
