/-
A conversion in place that stops half way. It stops at the first document
that cannot be read, or changes and cannot be replaced. Those in front of it
are converted whole, it and those behind it are as they were, and so is all
else (`StopsClean`).

Where it stops is told from the disk at the start, although each document is
read and replaced on the disk that the documents before it have left: these
have other texts, but no place has come or gone, so nothing that a later
document hangs on is another (`stops_of_converted`).

All of this holds on the disk alone, where a file that cannot be replaced is
one that never could be, and on a host that refuses steps at will.
-/
import ComponentMarkdown.Proofs.Cli.Modes
import ComponentMarkdown.Proofs.Files.Replacement

namespace ComponentMarkdown.Cli

open Files

-- ==================================================== where it stops

/-- Whether a document, as it is on a disk, stops a conversion in place: it
cannot be read, or it changes and cannot be replaced. -/
def stops (a : Access) (t : Transformer) (d : Disk) (path : String) : Bool :=
  match a.read d path with
  | .error _ => true
  | .ok source =>
    match t.transform source path with
    | .unchanged => false
    | .changed text _ => (a.replace d path text).2.isSome

/-- The first of some documents that stops a conversion in place, their
number if none does. -/
def firstStop (a : Access) (t : Transformer) (d : Disk)
    (paths : List String) : Nat :=
  paths.findIdx (stops a t d)

/-- How a conversion in place may end, whether or not it stops half way. -/
structure StopsClean (a : Access) (t : Transformer) (d : Disk)
    (paths : List String) (e : Ending) : Prop where
  /-- No file or directory is added or removed. -/
  shape : d.SameShape e.session.disk
  /-- The documents that change, in front of the first that stops it, hold
  their new texts. -/
  converted : ∀ path ∈ changing t d (paths.take (firstStop a t d paths)),
    ∃ place, d.find path = .ok place
      ∧ e.session.disk.root.contentsAt place = some (.text (newText t d path))
  /-- Only eligible documents change. -/
  eligible : ∀ path ∈ changing t d paths, t.isEligible path = true
  /-- Every other file is as before. -/
  kept : ∀ place,
    (∀ path ∈ changing t d (paths.take (firstStop a t d paths)),
      d.find path ≠ .ok place) →
    e.session.disk.root.contentsAt place = d.root.contentsAt place
  exitCode : e.exitCode = if firstStop a t d paths < paths.length then 1 else 0

-- ====================================================== one document

variable {a : Access} {t : Transformer} {d d₁ d' : Disk} {m : ConvertMode}
  {setup : Setup} {path : String} {paths : List String}

theorem textOf_eq {source : Text} (h : d.read path = .ok source) :
    textOf d path = source := by
  rw [textOf, h]

/-- Reporting an unchanged document leaves the disk. -/
theorem ConvertMode.disk_unchanged (m : ConvertMode) (setup : Setup)
    (source : Text) (s : Session) :
    (m.unchanged setup source s).disk = s.disk := by
  unfold unchanged
  cases m.verbose <;> cases m.inPlace || m.check <;> rfl

/-- So does reporting a changed one. -/
theorem ConvertMode.disk_reportChange (m : ConvertMode) (setup : Setup)
    (path : String) (tally : Tally) (s : Session) :
    (m.reportChange setup path tally s).disk = s.disk := by
  unfold reportChange
  rw [Session.foldl_remark]
  split <;> rfl

/-- In a mode that replaces, a document is written by replacing it. -/
theorem ConvertMode.write_of_replaces (hm : m.replaces = true)
    (a : Access) (path : String) (t : Text) (s : Session) :
    m.write a path t s
      = ({ s with disk := (a.replace s.disk path t).1 },
        (a.replace s.disk path t).2.map .replace) := by
  obtain ⟨hinPlace, hcheck⟩ := Bool.and_eq_true_iff.1 hm
  rw [Bool.not_eq_true'] at hcheck
  unfold write
  rw [hcheck, hinPlace]
  rfl

/-- A document either stops the conversion and leaves the disk alone, or it
is converted. -/
theorem one_cases (ha : a.Lawful) (hm : m.replaces = true)
    (setup : Setup) (t : Transformer) (path : String) (s : Session) :
    (stops a t s.disk path = true
        ∧ (∃ failure, (m.one a setup t path s).2 = .error failure)
        ∧ s.disk.Alike (m.one a setup t path s).1.disk)
      ∨ (stops a t s.disk path = false ∧ IsText s.disk path
        ∧ (∃ changed, (m.one a setup t path s).2 = .ok changed)
        ∧ Converted t s.disk [path]
          (m.one a setup t path s).1.disk) := by
  have hstart : (if m.verbose then s.remark ("Processing: " ++ path)
      else s).disk = s.disk := by
    cases m.verbose <;> rfl
  unfold stops ConvertMode.one
  dsimp only
  rw [hstart]
  cases hread : a.read s.disk path with
  | error fault =>
    dsimp only
    rw [hstart]
    exact Or.inl ⟨rfl, ⟨_, rfl⟩, .refl _⟩
  | ok source =>
    have hsource := ha.read_eq_ok hread
    have htext := textOf_eq hsource
    dsimp only
    cases htransform : t.transform source path with
    | unchanged =>
      dsimp only
      rw [← htext] at htransform
      rw [ConvertMode.disk_unchanged, Session.log_eq, hstart]
      exact Or.inr ⟨rfl, ⟨source, hsource⟩, ⟨_, rfl⟩,
        .of_keeps ⟨source, hsource⟩ (found_of_unchanged htransform).2⟩
    | changed text tally =>
      dsimp only
      rw [← htext] at htransform
      obtain ⟨-, hnew⟩ := found_of_changed htransform
      rw [ConvertMode.write_of_replaces hm,
        ConvertMode.disk_reportChange, Session.log_eq, hstart]
      rcases ha.replace_cases s.disk path text with
        ⟨hnone, hreplace⟩ | ⟨hsome, halike⟩
      · obtain ⟨place, hfind, hfile⟩ := Disk.read_eq_ok_iff.1 hsource
        have hreplaced := Disk.replaced_of_replace hreplace hfind hfile
        rw [← hnew] at hreplaced hnone ⊢
        rw [hnone]
        exact Or.inr ⟨rfl, ⟨source, hsource⟩, ⟨_, rfl⟩,
          .of_replaced hfind hreplaced⟩
      · obtain ⟨fault, hfault⟩ := Option.ne_none_iff_exists'.1 hsome
        rw [hfault]
        exact Or.inl ⟨rfl, ⟨_, rfl⟩, halike⟩

/-- Whether a document stops the conversion does not hang on one that was
converted before it. -/
theorem stops_of_converted (ha : a.Lawful) {other : String}
    (h : Converted t d [path] d₁) (hne : d.find path ≠ d.find other) :
    stops a t d₁ other = stops a t d other := by
  have hread : a.read d₁ other = a.read d other :=
    ha.read_congr h.shape fun place hplace =>
      h.kept place (List.forall_mem_singleton.2 (hplace ▸ hne))
  unfold stops
  rw [hread]
  cases a.read d other with
  | error fault => rfl
  | ok source =>
    dsimp only
    cases t.transform source other with
    | unchanged => rfl
    | changed text tally =>
      exact congrArg Option.isSome (ha.replace_congr h.shape other text)

-- ========================================================== the whole run

/-- The first stop is at the first document if that one stops, and behind it
otherwise. -/
theorem firstStop_cons (a : Access) (t : Transformer) (d : Disk)
    (path : String) (rest : List String) :
    firstStop a t d (path :: rest)
      = if stops a t d path then 0 else firstStop a t d rest + 1 := by
  unfold firstStop
  rw [List.findIdx_cons]
  cases stops a t d path <;> rfl

theorem firstStop_of_converted (ha : a.Lawful)
    (h : Converted t d [path] d₁)
    (hne : ∀ other ∈ paths, d.find path ≠ d.find other) :
    firstStop a t d₁ paths = firstStop a t d paths := by
  induction paths with
  | nil => rfl
  | cons other rest ih =>
    obtain ⟨hother, hrest⟩ := List.forall_mem_cons.1 hne
    rw [firstStop_cons, firstStop_cons, ih hrest,
      stops_of_converted ha h hother]

/-- A conversion in place converts the documents in front of the first that
stops it, which are texts, and fails if there is one that does. -/
theorem all_converts (ha : a.Lawful) (hm : m.replaces = true)
    (setup : Setup) (t : Transformer) {s : Session}
    (hne : paths.Pairwise fun a b => s.disk.find a ≠ s.disk.find b) :
    Converted t s.disk (paths.take (firstStop a t s.disk paths))
        (m.all a setup t paths s).1.disk
      ∧ (∀ path ∈ paths.take (firstStop a t s.disk paths),
        IsText s.disk path)
      ∧ (firstStop a t s.disk paths < paths.length
          ∧ (∃ failure, (m.all a setup t paths s).2 = .error failure)
        ∨ firstStop a t s.disk paths = paths.length
          ∧ ∃ count, (m.all a setup t paths s).2 = .ok count) := by
  induction paths generalizing s with
  | nil =>
    exact ⟨converted_nil, fun _ h => absurd h List.not_mem_nil,
      Or.inr ⟨rfl, 0, rfl⟩⟩
  | cons path rest ih =>
    obtain ⟨hfirst, hlater⟩ := List.pairwise_cons.1 hne
    rw [firstStop_cons]
    unfold ConvertMode.all
    have hone := one_cases ha hm setup t path s
    cases hstep : m.one a setup t path s with
    | mk s₁ result =>
      rw [hstep] at hone
      rcases hone with
        ⟨hstop, ⟨failure, rfl⟩, halike⟩
          | ⟨hgo, hread, ⟨changed, rfl⟩, hconverted⟩
      · rw [if_pos hstop]
        exact ⟨⟨halike.shape, fun _ h => absurd h List.not_mem_nil,
            fun place _ => (halike.agree place).2⟩,
          fun _ h => absurd h List.not_mem_nil,
          Or.inl ⟨Nat.zero_lt_succ _, failure, rfl⟩⟩
      · rw [if_neg (Bool.eq_false_iff.1 hgo), List.take_succ_cons]
        have hlater₁ : rest.Pairwise
            fun a b => s₁.disk.find a ≠ s₁.disk.find b := by
          simpa only [hconverted.shape.find_eq] using hlater
        obtain ⟨hrest, htexts, hend⟩ := ih hlater₁
        rw [firstStop_of_converted ha hconverted hfirst]
          at hrest htexts hend
        have hfront {other : String}
            (h : other ∈ rest.take (firstStop a t s.disk rest)) :=
          hfirst other (List.mem_of_mem_take h)
        have htexts₀ : ∀ other ∈ rest.take (firstStop a t s.disk rest),
            IsText s.disk other := fun other hother => by
          rw [IsText, ← hconverted.read_eq (hfront hother)]
          exact htexts other hother
        refine ⟨hconverted.cons (fun _ => hfront) hrest,
          List.forall_mem_cons.2 ⟨hread, htexts₀⟩, ?_⟩
        dsimp only
        rw [List.length_cons, Nat.add_lt_add_iff_right, Nat.add_right_cancel_iff]
        rcases hend with ⟨hlt, failure, hfailure⟩ | ⟨heq, count, hcount⟩
        · rw [hfailure]
          exact Or.inl ⟨hlt, failure, rfl⟩
        · rw [hcount]
          exact Or.inr ⟨heq, _, rfl⟩

/-- Where that leaves the disk, and what it tells by its exit code. -/
theorem stopsClean_convert (ha : a.Lawful) (hm : m.replaces = true)
    (setup : Setup) (t : Transformer) {s : Session}
    (hne : paths.Pairwise fun a b => s.disk.find a ≠ s.disk.find b) :
    StopsClean a t s.disk paths (convert a setup m t paths s) := by
  obtain ⟨hconverted, htexts, hend⟩ := all_converts ha hm setup t hne
  have hdisk : (convert a setup m t paths s).session.disk
      = (m.all a setup t paths s).1.disk := by
    unfold convert
    cases m.all a setup t paths s with
    | mk u result => cases result <;> rfl
  have hchanging {path : String}
      (h : path ∈ changing t s.disk (paths.take (firstStop a t s.disk paths))) :
      path ∈ paths.take (firstStop a t s.disk paths) := (List.mem_filter.1 h).1
  rw [← hdisk] at hconverted
  constructor
  case shape => exact hconverted.shape
  case converted =>
    intro path hpath
    have hmem := hchanging hpath
    obtain ⟨place, hfind, -⟩ :=
      Disk.read_eq_ok_iff.1 (read_of_isText (htexts path hmem))
    exact ⟨place, hfind, hconverted.converted path hmem place hfind⟩
  case eligible =>
    intro path hpath
    have hchange := (List.mem_filter.1 hpath).2
    by_contra hid
    have htransform : t.transform (textOf s.disk path) path = .unchanged :=
      if_neg hid
    rw [(found_of_unchanged htransform).1] at hchange
    cases hchange
  case kept => exact fun _ hplace => hconverted.kept_of_changing htexts hplace
  case exitCode =>
    unfold convert
    rcases hend with ⟨hlt, failure, hfailure⟩ | ⟨heq, count, hcount⟩
    · rw [if_pos hlt]
      cases hall : m.all a setup t paths s with
      | mk u result =>
        rw [hall] at hfailure
        cases hfailure
        rfl
    · rw [if_neg (Nat.not_lt.2 (Nat.le_of_eq heq.symm))]
      cases hall : m.all a setup t paths s with
      | mk u result =>
        rw [hall] at hcount
        cases hcount
        rfl

-- ============================================================ the command

/-- What a replacement comes to: one path is set, or all is as it was. -/
def SetsOrKeeps (d : Disk) (path : String) (t : Text)
    (result : Disk × Option ReplaceFault) : Prop :=
  result.2 = none ∧ d.Sets path t result.1
    ∨ result.2 ≠ none ∧ d.Alike result.1

/-- A replacement sets the file or keeps the disk as it was. -/
theorem setsOrKeeps_replace (ha : a.Lawful) (d : Disk) (path : String)
    (text : Text) : SetsOrKeeps d path text (a.replace d path text) :=
  (ha.replace_cases d path text).imp_left fun ⟨hnone, hreplace⟩ =>
    ⟨hnone, Disk.sets_of_replace hreplace⟩

/-- A conversion in place that stops half way leaves no damage, and neither
does a replacement, on the disk alone and on any host. -/
theorem convert_stops_clean {setup : Setup} {settings : Settings} {s : Session}
    {files rules : List String} {t : Transformer} {notes : List Log.Entry}
    {paths : List String} (verbose : Bool)
    (hrules : chooseTransformer settings rules = .ok t)
    (hselect : Selection.select s.disk settings files = (notes, .ok paths))
    (hne : paths.Pairwise fun a b => s.disk.find a ≠ s.disk.find b) :
    StopsClean Disk.access t s.disk paths
        (runCommand setup settings s (.convert files rules true false verbose))
      ∧ (∀ host : Host, StopsClean host.access t s.disk paths
        (withDocuments setup settings files rules s
          (convert host.access setup ⟨true, false, verbose⟩)))
      ∧ (∀ (d : Disk) (path : String) (text : Text),
        SetsOrKeeps d path text (Disk.access.replace d path text))
      ∧ ∀ (host : Host) (d : Disk) (path : String) (text : Text),
        SetsOrKeeps d path text (host.access.replace d path text) := by
  have hends {a : Access} (ha : a.Lawful) : StopsClean a t s.disk paths
      (convert a setup ⟨true, false, verbose⟩ t paths
        (s.log setup notes)) :=
    stopsClean_convert ha rfl setup t (s := s.log setup notes) hne
  refine ⟨?_, ?_, ?_, ?_⟩
  · rw [runCommand_convert hrules hselect]
    exact hends Disk.access_lawful
  · intro host
    rw [withDocuments_eq hrules hselect]
    exact hends host.access_lawful
  · intro d path text
    exact setsOrKeeps_replace Disk.access_lawful d path text
  · intro host d path text
    exact setsOrKeeps_replace host.access_lawful d path text

/-- A disk with three documents, all with something to rewrite. -/
def threeDocuments : Disk :=
  ⟨.dir [("a.md", .file (.text "<a frameBorder>".toList)),
    ("b.md", .file (.text "<b frameBorder>".toList)),
    ("c.md", .file (.text "<c frameBorder>".toList))], []⟩

/-- A name for a new file. -/
def freshName (entries : List (String × Tree)) : String :=
  if (entries.lookup ".tmpaaaaaa").isNone then ".tmpaaaaaa"
  else ".tmpaaaaaa" ++ String.join (entries.map (·.1))

theorem length_le_length_join {name : String} {names : List String}
    (h : name ∈ names) : name.length ≤ (String.join names).length := by
  induction names with
  | nil => cases h
  | cons first rest ih =>
    rw [String.join_cons, String.length_append]
    rcases List.mem_cons.1 h with rfl | h
    · exact Nat.le_add_right _ _
    · exact (ih h).trans (Nat.le_add_left _ _)

/-- A fresh name is not yet in the directory. -/
theorem lookup_freshName (entries : List (String × Tree)) :
    entries.lookup (freshName entries) = none := by
  unfold freshName
  split
  · rename_i hfree
    exact Option.isNone_iff_eq_none.1 hfree
  · -- a name longer than all others is none of them
    rw [List.lookup_eq_none_iff]
    intro e he
    rw [bne_iff_ne]
    intro heq
    have hle := length_le_length_join
      (List.mem_map_of_mem (f := fun e : String × Tree => e.1) he)
    have hlength := congrArg String.length heq
    rw [String.length_append] at hlength
    have hpos : ".tmpaaaaaa".length = 10 := rfl
    omega

/-- A host whose disk is full three characters into the second document. -/
def fullDisk : Host where
  refusesRead? _ := none
  refusesNew _ := false
  endsEarly? path text :=
    if path == "b.md" then some (.text (text.take 3)) else none
  refusesRename _ := false
  newName _ := freshName
  newName_free _ := lookup_freshName

/-- Of three documents the first is converted if there is no room for the
second. -/
theorem convert_stops_clean_threeDocuments :
    firstStop fullDisk.access .standard threeDocuments
        ["a.md", "b.md", "c.md"] = 1
      ∧ changing .standard threeDocuments ["a.md"] = ["a.md"]
      ∧ StopsClean fullDisk.access .standard threeDocuments
        ["a.md", "b.md", "c.md"]
        (withDocuments ⟨.standard, false⟩ .standard ["a.md", "b.md", "c.md"] []
          (.start threeDocuments)
          (convert fullDisk.access ⟨.standard, false⟩
            ⟨true, false, false⟩)) := by
  have hselect : Selection.select threeDocuments .standard
      ["a.md", "b.md", "c.md"] = ([], .ok ["a.md", "b.md", "c.md"]) := rfl
  have hne : ["a.md", "b.md", "c.md"].Pairwise fun a b =>
      threeDocuments.find a ≠ threeDocuments.find b := by
    have ha : threeDocuments.find "a.md" = .ok ["a.md"] := rfl
    have hb : threeDocuments.find "b.md" = .ok ["b.md"] := rfl
    have hc : threeDocuments.find "c.md" = .ok ["c.md"] := rfl
    simp [ha, hb, hc]
  exact ⟨by decide +kernel, by decide +kernel,
    (convert_stops_clean (s := .start threeDocuments) false rfl hselect
      hne).2.1 fullDisk⟩

end ComponentMarkdown.Cli
