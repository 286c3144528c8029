/-
Which documents are selected. Every argument comes to some paths, a pattern
to the files it matches and a path to itself (`expansion`), unless it names
nothing; the first that names nothing ends the selection
(`select_eq_error_iff`). What is selected are the first spellings among all
these paths, less those left out by the settings (`select_eq_ok_iff`).

A path is a first spelling if the search for a path equal to it finds just
that one (`IsFirst`). So the search is all that has to be known of the
removal of further spellings (`mem_firstSpellings_iff`).
-/
import ComponentMarkdown.Selection

namespace ComponentMarkdown

open Files Glob

-- ====================================================== equal spellings

namespace Files.Path

theorem same_iff {a b : String} :
    same a b = true ↔ components a = components b := beq_iff_eq

theorem same_self (a : String) : same a a = true := same_iff.2 rfl

/-- Equal paths are equal to the same paths. -/
theorem same_congr {a b : String} (h : same a b = true) :
    (same · a) = (same · b) := by
  funext c
  unfold same
  rw [same_iff.1 h]

end Files.Path

namespace Selection

open Files.Path

/-- Whether a path is the first of its spellings in a list. -/
def IsFirst (paths : List String) (p : String) : Prop :=
  paths.find? (same · p) = some p

/-- What is found in search of a path is the first of its spellings. -/
theorem isFirst_of_find? {paths : List String} {p q : String}
    (h : paths.find? (same · p) = some q) :
    IsFirst paths q ∧ same q p = true := by
  have hsame : same q p = true := by simpa using List.find?_some h
  refine ⟨?_, hsame⟩
  unfold IsFirst
  rw [same_congr hsame]
  exact h

theorem isFirst_cons_iff {path p : String} {rest : List String} :
    IsFirst (path :: rest) p
      ↔ p = path ∨ IsFirst rest p ∧ same path p = false := by
  unfold IsFirst
  rw [List.find?_cons]
  cases h : same path p with
  | true => simp [eq_comm]
  | false =>
    have hne : p ≠ path := by
      rintro rfl
      rw [same_self] at h
      cases h
    simp [hne]

theorem mem_firstSpellings_iff {paths : List String} {p : String} :
    p ∈ firstSpellings paths ↔ IsFirst paths p := by
  induction paths with
  | nil => exact iff_of_false List.not_mem_nil nofun
  | cons path rest ih =>
    rw [firstSpellings, List.mem_cons, List.mem_filter, ih, isFirst_cons_iff,
      Bool.not_eq_true']

theorem firstSpellings_sublist (paths : List String) :
    (firstSpellings paths).Sublist paths := by
  induction paths with
  | nil => exact List.Sublist.slnil
  | cons path rest ih => exact (List.filter_sublist.trans ih).cons_cons path

/-- No two first spellings are of one path. -/
theorem pairwise_firstSpellings (paths : List String) :
    (firstSpellings paths).Pairwise fun a b => same a b = false := by
  induction paths with
  | nil => exact List.Pairwise.nil
  | cons path rest ih =>
    refine List.pairwise_cons.2 ⟨fun p hp => ?_, ih.filter _⟩
    simpa using (List.mem_filter.1 hp).2

-- ======================================================== one argument

/-- The paths that an argument comes to, if it names any: itself, or the
files among those that the glob yields. -/
def expansion (d : Disk) (argument : String) : List String :=
  if hasMagic argument.toList then
    match d.glob argument with
    | .ok paths => paths.filter d.isFile
    | .error _ => []
  else [argument]

/-- Whether an argument names something. -/
def Accepts (d : Disk) (argument : String) : Prop :=
  named d argument = .ok (expansion d argument)

/-- Why an argument names nothing: it is a path that leads nowhere, or a
glob that is no pattern. -/
inductive FaultOf (d : Disk) (argument : String) : SelectionFault → Prop
  | missing (hpath : hasMagic argument.toList = false)
      (hnone : d.hasPath argument = false) :
      FaultOf d argument (.missing argument)
  | pattern {fault : PatternFault} (hmagic : hasMagic argument.toList = true)
      (hinvalid : d.glob argument = .error (.pattern fault)) :
      FaultOf d argument (.glob argument (.pattern fault))

/-- Whether the directories that a glob has to list can be listed. -/
def Listed (d : Disk) (argument : String) : Prop :=
  hasMagic argument.toList = true →
    ∀ fault, d.glob argument ≠ .error (.listing fault)

variable {d : Disk} {s : Settings} {arguments : List String}

theorem accepts_or_error (d : Disk) (argument : String) :
    Accepts d argument ∨ ∃ fault, named d argument = .error fault := by
  unfold Accepts named expansion
  split
  · cases d.glob argument with
    | error fault => exact Or.inr ⟨_, rfl⟩
    | ok paths => exact Or.inl rfl
  · split
    · exact Or.inl rfl
    · exact Or.inr ⟨_, rfl⟩

theorem Accepts.not_error {argument : String} (h : Accepts d argument)
    {fault : SelectionFault} : named d argument ≠ .error fault := by
  rw [h]
  nofun

theorem named_eq_error_iff {argument : String} (hlisted : Listed d argument)
    {fault : SelectionFault} :
    named d argument = .error fault ↔ FaultOf d argument fault := by
  constructor
  · intro h
    unfold named at h
    split at h
    · rename_i hmagic
      cases hglob : d.glob argument with
      | ok paths =>
        rw [hglob] at h
        cases h
      | error f =>
        rw [hglob] at h
        cases h
        cases f with
        | pattern f => exact .pattern hmagic hglob
        | listing f => exact absurd hglob (hlisted hmagic f)
    · rename_i hmagic
      split at h
      · cases h
      · rename_i hpath
        cases h
        rw [Bool.not_eq_true] at hmagic hpath
        exact .missing hmagic hpath
  · intro h
    unfold named
    cases h with
    | missing hpath hnone => simp [hpath, hnone]
    | pattern hmagic hinvalid => simp [hmagic, hinvalid]

theorem accepts_iff {argument : String} (hlisted : Listed d argument) :
    Accepts d argument ↔ ∀ fault, ¬FaultOf d argument fault := by
  constructor
  · intro h fault hfault
    exact h.not_error ((named_eq_error_iff hlisted).2 hfault)
  · intro h
    rcases accepts_or_error d argument with haccepts | ⟨fault, hfault⟩
    · exact haccepts
    · exact absurd ((named_eq_error_iff hlisted).1 hfault) (h fault)

-- ======================================================= all arguments

/-- All paths that some arguments come to, one argument after the other. -/
def expansions (d : Disk) (arguments : List String) : List String :=
  arguments.flatMap (expansion d)

theorem gather_cons_of_accepts {argument : String} {rest : List String}
    (h : Accepts d argument) :
    (gather d (argument :: rest)).2
      = (gather d rest).2.map (expansion d argument ++ ·) := by
  rw [gather, h]

theorem gather_cons_of_error {argument : String} {rest : List String}
    {fault : SelectionFault} (h : named d argument = .error fault) :
    (gather d (argument :: rest)).2 = .error fault := by
  rw [gather, h]

theorem gather_eq_ok_iff {paths : List String} :
    (gather d arguments).2 = .ok paths
      ↔ (∀ argument ∈ arguments, Accepts d argument)
        ∧ paths = expansions d arguments := by
  induction arguments generalizing paths with
  | nil => simp [gather, expansions, eq_comm]
  | cons argument rest ih =>
    rw [List.forall_mem_cons]
    rcases accepts_or_error d argument with haccepts | ⟨fault, hfault⟩
    · rw [gather_cons_of_accepts haccepts]
      cases hrest : (gather d rest).2 with
      | error fault =>
        have hnot : ¬∀ other ∈ rest, Accepts d other := by
          intro hall
          rw [ih.2 ⟨hall, rfl⟩] at hrest
          cases hrest
        exact iff_of_false nofun fun h => hnot h.1.2
      | ok more =>
        obtain ⟨hall, rfl⟩ := ih.1 hrest
        rw [and_iff_right ⟨haccepts, hall⟩]
        exact ⟨fun h => (Except.ok.inj h).symm, fun h => by rw [h]; rfl⟩
    · rw [gather_cons_of_error hfault]
      exact iff_of_false nofun fun h => h.1.1.not_error hfault

theorem gather_eq_error_iff {fault : SelectionFault} :
    (gather d arguments).2 = .error fault
      ↔ ∃ before argument after, arguments = before ++ argument :: after
        ∧ (∀ other ∈ before, Accepts d other)
        ∧ named d argument = .error fault := by
  induction arguments with
  | nil => exact iff_of_false nofun (by simp)
  | cons argument rest ih =>
    rcases accepts_or_error d argument with haccepts | ⟨fault', hfault⟩
    · have hmap : (gather d (argument :: rest)).2 = .error fault
          ↔ (gather d rest).2 = .error fault := by
        rw [gather_cons_of_accepts haccepts]
        cases (gather d rest).2 <;> simp [Except.map]
      rw [hmap, ih]
      constructor
      · rintro ⟨before, other, after, rfl, hbefore, herror⟩
        exact ⟨argument :: before, other, after, rfl,
          List.forall_mem_cons.2 ⟨haccepts, hbefore⟩, herror⟩
      · rintro ⟨before, other, after, hsplit, hbefore, herror⟩
        cases before with
        | nil =>
          obtain ⟨rfl, -⟩ := List.cons.inj hsplit
          exact absurd herror haccepts.not_error
        | cons first before =>
          obtain ⟨rfl, rfl⟩ := List.cons.inj hsplit
          exact ⟨before, other, after, rfl,
            (List.forall_mem_cons.1 hbefore).2, herror⟩
    · rw [gather_cons_of_error hfault]
      constructor
      · intro h
        cases h
        exact ⟨[], argument, rest, rfl, by simp, hfault⟩
      · rintro ⟨before, other, after, hsplit, hbefore, herror⟩
        cases before with
        | nil =>
          obtain ⟨rfl, -⟩ := List.cons.inj hsplit
          rw [← hfault, herror]
        | cons first before =>
          obtain ⟨rfl, -⟩ := List.cons.inj hsplit
          exact absurd hfault (List.forall_mem_cons.1 hbefore).1.not_error

-- ======================================================= the selection

/-- The documents that paths stand for: their first spellings, less what the
settings leave out. -/
def documents (s : Settings) (paths : List String) : List String :=
  (firstSpellings paths).filter fun p => !s.excludes p

theorem mem_documents_iff {paths : List String} {p : String} :
    p ∈ documents s paths ↔ IsFirst paths p ∧ s.excludes p = false := by
  unfold documents
  rw [List.mem_filter, mem_firstSpellings_iff, Bool.not_eq_true']

theorem eq_ok_of_toOption {ε α : Type} {result : Except ε α} {a : α}
    (h : result.toOption = some a) : result = .ok a := by
  cases result with
  | error e => cases h
  | ok b =>
    cases h
    rfl

theorem select_snd (d : Disk) (s : Settings) (arguments : List String) :
    (select d s arguments).2
      = (gather d arguments).2.map (documents s) := by
  unfold select
  obtain ⟨notes, fault | paths⟩ := gather d arguments
  · rfl
  · rfl

theorem select_eq_ok_iff {paths : List String} :
    (select d s arguments).2 = .ok paths
      ↔ (∀ argument ∈ arguments, Accepts d argument)
        ∧ paths = documents s (expansions d arguments) := by
  rw [select_snd]
  constructor
  · intro h
    cases hgather : (gather d arguments).2 with
    | error fault =>
      rw [hgather] at h
      cases h
    | ok found =>
      obtain ⟨haccepts, rfl⟩ := gather_eq_ok_iff.1 hgather
      rw [hgather] at h
      cases h
      exact ⟨haccepts, rfl⟩
  · rintro ⟨haccepts, rfl⟩
    rw [gather_eq_ok_iff.2 ⟨haccepts, rfl⟩]
    rfl

theorem select_eq_error_iff {fault : SelectionFault} :
    (select d s arguments).2 = .error fault
      ↔ ∃ before argument after, arguments = before ++ argument :: after
        ∧ (∀ other ∈ before, Accepts d other)
        ∧ named d argument = .error fault := by
  rw [select_snd, ← gather_eq_error_iff]
  cases (gather d arguments).2 <;> simp [Except.map]

-- ===================================================== what is selected

/-- The first argument that names nothing, and why. -/
def FirstFault (d : Disk) (arguments : List String) (argument : String)
    (fault : SelectionFault) : Prop :=
  ∃ before after, arguments = before ++ argument :: after
    ∧ (∀ other ∈ before, ∀ fault, ¬FaultOf d other fault)
    ∧ FaultOf d argument fault

/-- The documents that some arguments select. -/
structure Selects (d : Disk) (s : Settings)
    (arguments paths : List String) : Prop where
  /-- They are paths that the arguments come to, in the same order. -/
  sublist : paths.Sublist (expansions d arguments)
  /-- No two of them are equal. -/
  distinct : paths.Pairwise fun a b => same a b = false
  /-- None of them is left out. -/
  kept : ∀ p ∈ paths, s.excludes p = false
  /-- Each is the first of its spellings. -/
  first : ∀ p ∈ paths, IsFirst (expansions d arguments) p
  /-- All that are the first of their spellings and not left out are there. -/
  complete : ∀ p, IsFirst (expansions d arguments) p →
    s.excludes p = false → p ∈ paths

theorem selects_documents (d : Disk) (s : Settings)
    (arguments : List String) :
    Selects d s arguments (documents s (expansions d arguments)) where
  sublist := List.filter_sublist.trans (firstSpellings_sublist _)
  distinct := (pairwise_firstSpellings _).filter _
  kept _ h := (mem_documents_iff.1 h).2
  first _ h := (mem_documents_iff.1 h).1
  complete _ hfirst hkept := mem_documents_iff.2 ⟨hfirst, hkept⟩

/-- The report about an argument that names nothing ends with it. -/
theorem FaultOf.message_eq {argument : String} {fault : SelectionFault}
    (h : FaultOf d argument fault) :
    fault.message
      = (if hasMagic argument.toList then "Invalid glob pattern: "
          else "File not found: ") ++ argument := by
  cases h with
  | missing hpath hnone =>
    rw [hpath]
    rfl
  | pattern hmagic hinvalid =>
    rw [hmagic]
    rfl

/-- What a selection comes to. -/
structure Answers (d : Disk) (s : Settings) (arguments : List String)
    (result : Except SelectionFault (List String)) : Prop where
  /-- It fails if and only if some argument names nothing. -/
  fails_iff : (∃ fault, result = .error fault)
    ↔ ∃ argument ∈ arguments, ∃ fault, FaultOf d argument fault
  /-- It fails at the first such argument, and says so. -/
  fails_first : ∀ fault, result = .error fault →
    ∃ argument, FirstFault d arguments argument fault
      ∧ fault.message
        = (if hasMagic argument.toList then "Invalid glob pattern: "
            else "File not found: ") ++ argument
  /-- Otherwise it gives the documents that the arguments select. -/
  selects : ∀ paths, result = .ok paths → Selects d s arguments paths

/-- A selection fails at the first argument that names nothing, and selects
the documents of all arguments if there is none, as long as every directory
on the way can be listed. -/
theorem answers_select
    (hlisted : ∀ argument ∈ arguments, Listed d argument) :
    Answers d s arguments (select d s arguments).2 := by
  have haccepts : (∀ argument ∈ arguments, Accepts d argument)
      ↔ ¬∃ argument ∈ arguments, ∃ fault, FaultOf d argument fault := by
    simp only [not_exists, not_and]
    exact forall₂_congr fun argument hmem => accepts_iff (hlisted argument hmem)
  constructor
  case fails_iff =>
    constructor
    · rintro ⟨fault, hfault⟩
      refine Classical.byContradiction fun hnone => ?_
      rw [select_eq_ok_iff.2 ⟨haccepts.2 hnone, rfl⟩] at hfault
      cases hfault
    · intro hfaulty
      cases hresult : (select d s arguments).2 with
      | error fault => exact ⟨fault, rfl⟩
      | ok paths =>
        exact absurd hfaulty (haccepts.1 (select_eq_ok_iff.1 hresult).1)
  case fails_first =>
    intro fault hfault
    obtain ⟨before, argument, after, rfl, hbefore, hnamed⟩ :=
      select_eq_error_iff.1 hfault
    have hother : ∀ other ∈ before, Listed d other := fun other hmem =>
      hlisted other (List.mem_append_left _ hmem)
    have hfault := (named_eq_error_iff
      (hlisted argument (List.mem_append_cons_self))).1 hnamed
    refine ⟨argument, ⟨before, after, rfl, fun other hmem => ?_, hfault⟩,
      hfault.message_eq⟩
    exact (accepts_iff (hother other hmem)).1 (hbefore other hmem)
  case selects =>
    intro paths hpaths
    obtain ⟨-, rfl⟩ := select_eq_ok_iff.1 hpaths
    exact selects_documents d s arguments

/-- A disk with two documents and a directory side by side. -/
def twoNotes : Disk :=
  ⟨.dir [("docs", .dir [("a.md", .file (.text [])),
    ("draft.md", .file (.text [])), ("old", .dir [])])], []⟩

/-- Settings that leave drafts out. -/
def withoutDrafts : Settings := { Settings.standard with exclude := ["docs/d*"] }

/-- A path in one spelling and a glob that yields it in another, a draft and
a directory: the path is selected as it is written. -/
theorem answers_select_twoNotes :
    (select twoNotes withoutDrafts ["docs//a.md", "docs/*"]).2.toOption
        = some ["docs//a.md"]
      ∧ Listed twoNotes "docs/*"
      ∧ Answers twoNotes withoutDrafts ["docs//a.md", "docs/*"]
        (select twoNotes withoutDrafts ["docs//a.md", "docs/*"]).2 := by
  have hglob : (twoNotes.glob "docs/*").toOption
      = some ["docs/a.md", "docs/draft.md", "docs/old"] := by decide +kernel
  have hlisted : Listed twoNotes "docs/*" := by
    intro _ fault hfault
    rw [hfault] at hglob
    cases hglob
  refine ⟨by decide +kernel, hlisted, answers_select fun argument hmem => ?_⟩
  rcases List.mem_cons.1 hmem with rfl | hmem
  · exact fun hmagic => absurd hmagic (by decide)
  · rw [List.mem_singleton.1 hmem]
    exact hlisted

end Selection

end ComponentMarkdown
