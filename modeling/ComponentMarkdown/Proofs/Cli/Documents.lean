/-
What the commands that work on documents do, document by document. A check
and a conversion that writes no file only add to what is written
(`checkAll_eq`, `ConvertMode.all_eq`); a conversion in place changes
nothing but the files on its list, each to what the transformer makes of it
(`converted_all`). All of it is said in terms of what the disk held at the
start, since files named by different paths do not get in each other's way.
-/
import ComponentMarkdown.Cli.Run
import ComponentMarkdown.Proofs.Files.Disk

namespace ComponentMarkdown.Cli

open Files

-- ================================================== what a disk holds

/-- The text of a file, nothing if it cannot be read. -/
def textOf (d : Disk) (path : String) : Text :=
  match d.read path with
  | .ok t => t
  | .error _ => []

/-- What is found in a file. -/
def recordOf (t : Transformer) (d : Disk) (path : String) : CheckRecord :=
  CheckRecord.ofDocument t path (textOf d path)

/-- What a conversion makes of the text of a file. -/
def newText (t : Transformer) (d : Disk) (path : String) : Text :=
  (t.transform (textOf d path) path).textOr (textOf d path)

/-- Whether a path leads to a text. -/
def IsText (d : Disk) (path : String) : Prop := ∃ t, d.read path = .ok t

/-- A readable document is read as its text. -/
theorem read_of_isText {d : Disk} {path : String} (h : IsText d path) :
    d.read path = .ok (textOf d path) := by
  obtain ⟨t, ht⟩ := h
  unfold textOf
  rw [ht]

/-- The file that the path of a text leads to holds that text. -/
theorem contentsAt_of_isText {d : Disk} {path : String} {place : Place}
    (h : IsText d path) (hfind : d.find path = .ok place) :
    d.root.contentsAt place = some (.text (textOf d path)) := by
  obtain ⟨place', hfind', hfile⟩ :=
    Disk.read_eq_ok_iff.1 (read_of_isText h)
  rw [hfind] at hfind'
  cases hfind'
  exact hfile

theorem found_of_unchanged {t : Transformer} {d : Disk} {path : String}
    (h : t.transform (textOf d path) path = .unchanged) :
    recordOf t d path = ⟨path, false, .empty⟩
      ∧ newText t d path = textOf d path := by
  unfold recordOf newText CheckRecord.ofDocument
  rw [h]
  exact ⟨rfl, rfl⟩

theorem found_of_changed {t : Transformer} {d : Disk} {path : String}
    {text : Text} {tally : Tally}
    (h : t.transform (textOf d path) path = .changed text tally) :
    recordOf t d path = ⟨path, true, tally⟩ ∧ newText t d path = text := by
  unfold recordOf newText CheckRecord.ofDocument
  rw [h]
  exact ⟨rfl, rfl⟩

theorem newText_of_keeps {t : Transformer} {d : Disk} {path : String}
    (h : (recordOf t d path).wouldChange = false) :
    newText t d path = textOf d path := by
  cases htransform : t.transform (textOf d path) path with
  | unchanged => exact (found_of_unchanged htransform).2
  | changed text tally =>
    rw [(found_of_changed htransform).1] at h
    cases h

-- ==================================================== what is written

/-- Lines, each with its end. -/
def unlines (lines : List String) : String :=
  String.join (lines.map (· ++ "\n"))

/-- The lines of the log that are shown. -/
def logText (setup : Setup) (entries : List Log.Entry) : String :=
  String.join ((entries.filter setup.logFilter.shows).map Log.Entry.line)

theorem unlines_nil : unlines [] = "" := rfl

theorem unlines_cons (line : String) (lines : List String) :
    unlines (line :: lines) = line ++ "\n" ++ unlines lines := by
  unfold unlines
  rw [List.map_cons, String.join_cons]

theorem Session.log_eq (s : Session) (setup : Setup)
    (entries : List Log.Entry) :
    s.log setup entries
      = { s with errors := s.errors ++ logText setup entries } := rfl

theorem Session.foldl_remark (s : Session) (lines : List String) :
    lines.foldl Session.remark s
      = { s with errors := s.errors ++ unlines lines } := by
  induction lines generalizing s with
  | nil => simp [unlines_nil]
  | cons line lines ih =>
    rw [List.foldl_cons, ih, unlines_cons]
    simp [Session.remark, String.append_assoc]

theorem Session.foldl_printLine (s : Session) (lines : List String) :
    lines.foldl Session.printLine s
      = { s with output := s.output ++ unlines lines } := by
  induction lines generalizing s with
  | nil => simp [unlines_nil]
  | cons line lines ih =>
    rw [List.foldl_cons, ih, unlines_cons]
    simp [Session.printLine, Session.print, String.append_assoc]

-- =========================================================== converting

namespace ConvertMode

/-- Whether files are replaced. A check keeps the files, whatever else is
asked for. -/
def replaces (m : ConvertMode) : Bool := m.inPlace && !m.check

/-- The lines about what was found in a document. -/
def found (m : ConvertMode) (setup : Setup) (r : CheckRecord) :
    List String :=
  if r.wouldChange then
    if m.verbose || m.check then
      changeLine (if m.check then "Would fix" else "Fixed") r.path r.tally
        :: countLines setup.color r.tally
    else []
  else if m.verbose then
    ["  " ++ Style.green.apply setup.color "✓" ++ " unchanged"]
  else []

/-- What is written beside the output about a document: that it is being
worked on, the log, and what was found. -/
def remarks (m : ConvertMode) (setup : Setup) (t : Transformer) (d : Disk)
    (path : String) : String :=
  unlines (if m.verbose then ["Processing: " ++ path] else [])
    ++ logText setup (t.journal (textOf d path) path)
    ++ unlines (m.found setup (recordOf t d path))

/-- What is written to the output about a document. -/
def printed (m : ConvertMode) (t : Transformer) (d : Disk)
    (path : String) : String :=
  if m.inPlace || m.check then "" else String.ofList (newText t d path)

/-- The session at a document that is about to be read. -/
def atDocument (m : ConvertMode) (setup : Setup) (t : Transformer)
    (path : String) (s : Session) : Session :=
  { s with
    errors := s.errors
      ++ unlines (if m.verbose then ["Processing: " ++ path] else [])
      ++ logText setup (t.journal (textOf s.disk path) path) }

/-- One document is converted by writing its new text, if it has one. -/
theorem one_of_isText {m : ConvertMode} {setup : Setup} {t : Transformer}
    {path : String} {s : Session} (hread : IsText s.disk path) :
    m.one Disk.access setup t path s
      = match t.transform (textOf s.disk path) path with
        | .unchanged =>
          (m.unchanged setup (textOf s.disk path)
            (m.atDocument setup t path s), .ok false)
        | .changed text tally =>
          match m.write Disk.access path text
              (m.reportChange setup path tally
                (m.atDocument setup t path s)) with
          | (s, none) => (s, .ok true)
          | (s, some failure) => (s, .error failure) := by
  have hstart : (if m.verbose then s.remark ("Processing: " ++ path) else s)
      = { s with errors := s.errors
          ++ unlines (if m.verbose then ["Processing: " ++ path] else []) } := by
    rw [← Session.foldl_remark]
    cases m.verbose <;> rfl
  have hsource : Disk.access.read s.disk path = .ok (textOf s.disk path) :=
    read_of_isText hread
  unfold one
  rw [hstart]
  dsimp only
  rw [hsource]
  rfl

theorem unchanged_eq (m : ConvertMode) (setup : Setup) (t : Transformer)
    {path : String} {s : Session} {d : Disk}
    (h : t.transform (textOf d path) path = .unchanged) :
    m.unchanged setup (textOf d path) s
      = { s with
          output := s.output ++ m.printed t d path
          errors := s.errors ++ unlines (m.found setup (recordOf t d path)) }
      := by
  obtain ⟨hrecord, hnew⟩ := found_of_unchanged h
  unfold unchanged printed found
  rw [hrecord, hnew]
  cases m.verbose <;> cases m.inPlace || m.check <;>
    simp [Session.print, Session.remark, unlines, String.append_assoc]

/-- What is reported of a change. -/
theorem reportChange_eq (m : ConvertMode) (setup : Setup) (t : Transformer)
    {path : String} {s : Session} {d : Disk} {text : Text} {tally : Tally}
    (h : t.transform (textOf d path) path = .changed text tally) :
    m.reportChange setup path tally s
      = { s with
          errors := s.errors ++ unlines (m.found setup (recordOf t d path)) }
      := by
  obtain ⟨hrecord, -⟩ := found_of_changed h
  unfold reportChange found
  rw [hrecord, Session.foldl_remark]
  cases m.verbose || m.check
  · simp [unlines_nil]
  · rfl

/-- The session behind a document, but for what becomes of its file. -/
def behindDocument (m : ConvertMode) (setup : Setup) (t : Transformer)
    (path : String) (s : Session) : Session :=
  ⟨s.output ++ m.printed t s.disk path,
    s.errors ++ m.remarks setup t s.disk path, s.disk⟩

/-- What converting one document does to the session. -/
theorem one_eq {m : ConvertMode} {setup : Setup} {t : Transformer}
    {path : String} {s : Session} (hread : IsText s.disk path) :
    m.one Disk.access setup t path s
      = if (recordOf t s.disk path).wouldChange && m.replaces then
          match s.disk.replace path (newText t s.disk path) with
          | .ok d =>
            ({ m.behindDocument setup t path s with disk := d }, .ok true)
          | .error fault =>
            (m.behindDocument setup t path s, .error (.replace fault))
        else
          (m.behindDocument setup t path s,
            .ok (recordOf t s.disk path).wouldChange) := by
  rw [one_of_isText hread]
  unfold behindDocument remarks
  rw [← String.append_assoc, ← String.append_assoc]
  cases h : t.transform (textOf s.disk path) path with
  | unchanged =>
    dsimp only
    rw [unchanged_eq m setup t h, (found_of_unchanged h).1]
    rfl
  | changed text tally =>
    obtain ⟨hrecord, hnew⟩ := found_of_changed h
    dsimp only
    rw [reportChange_eq m setup t h, hrecord, hnew]
    unfold write replaces printed
    rw [hnew]
    cases m.check <;> cases m.inPlace <;>
      simp [atDocument, Session.print, Disk.access]
    cases s.disk.replace path text <;> rfl

/-- A conversion that replaces no file writes about one document after the
other. -/
theorem all_eq {m : ConvertMode} (hm : m.replaces = false) {setup : Setup}
    {t : Transformer} {paths : List String} {s : Session}
    (hread : ∀ path ∈ paths, IsText s.disk path) :
    m.all Disk.access setup t paths s
      = (⟨s.output ++ String.join (paths.map (m.printed t s.disk)),
          s.errors ++ String.join (paths.map (m.remarks setup t s.disk)),
          s.disk⟩,
        .ok (paths.countP fun path => (recordOf t s.disk path).wouldChange))
      := by
  induction paths generalizing s with
  | nil => simp [all]
  | cons path rest ih =>
    obtain ⟨hpath, hrest⟩ := List.forall_mem_cons.1 hread
    unfold all
    rw [one_eq hpath, hm, Bool.and_false, if_neg Bool.false_ne_true]
    dsimp only
    rw [ih (s := m.behindDocument setup t path s) hrest]
    unfold behindDocument
    simp only [List.map_cons, String.join_cons, String.append_assoc,
      List.countP_cons]
    rfl

end ConvertMode

-- ============================================================ checking

/-- What a check writes about a document. -/
def shownRecord (setup : Setup) (json : Bool) (r : CheckRecord) : String :=
  if json then r.json ++ "\n"
  else if r.wouldChange then
    changeLine (Style.red.apply setup.color "✗") r.path r.tally ++ "\n"
  else ""

/-- The session behind a checked document. -/
def behindChecked (setup : Setup) (t : Transformer) (json : Bool)
    (path : String) (s : Session) : Session :=
  ⟨s.output ++ shownRecord setup json (recordOf t s.disk path),
    s.errors ++ logText setup (t.journal (textOf s.disk path) path), s.disk⟩

/-- A check writes about one document after the other, and leaves the disk
alone. -/
theorem checkAll_eq {setup : Setup} {t : Transformer} {json : Bool}
    {found : CheckSummary} {paths : List String} {s : Session}
    (hread : ∀ path ∈ paths, IsText s.disk path) :
    checkAll setup t json found paths s
      = (⟨s.output ++ String.join
            (paths.map fun path =>
              shownRecord setup json (recordOf t s.disk path)),
          s.errors ++ String.join
            (paths.map fun path =>
              logText setup (t.journal (textOf s.disk path) path)),
          s.disk⟩,
        .ok ((paths.map (recordOf t s.disk)).foldl CheckSummary.add found))
      := by
  induction paths generalizing s found with
  | nil => simp [checkAll]
  | cons path rest ih =>
    obtain ⟨hpath, hrest⟩ := List.forall_mem_cons.1 hread
    have hshown (u : Session) (r : CheckRecord) : showRecord setup json r u
        = { u with output := u.output ++ shownRecord setup json r } := by
      unfold showRecord shownRecord
      cases json <;> cases r.wouldChange <;>
        simp [Session.printLine, Session.print]
    unfold checkAll
    rw [read_of_isText hpath]
    dsimp only
    rw [hshown, Session.log_eq]
    show checkAll setup t json _ rest (behindChecked setup t json path s) = _
    rw [ih (s := behindChecked setup t json path s) hrest]
    unfold behindChecked
    simp only [List.map_cons, String.join_cons, String.append_assoc,
      List.foldl_cons]
    rfl

-- ============================================================= commands

section

variable {setup : Setup} {settings : Settings} {s : Session}
  {files rules : List String} {t : Transformer} {notes : List Log.Entry}
  {paths : List String}
  (hrules : chooseTransformer settings rules = .ok t)
  (hselect : Selection.select s.disk settings files = (notes, .ok paths))

include hrules hselect

/-- Where transformer and documents can be chosen, a command goes on with
them. -/
theorem withDocuments_eq
    (next : Transformer → List String → Session → Ending) :
    withDocuments setup settings files rules s next
      = next t paths (s.log setup notes) := by
  unfold withDocuments
  rw [hrules, hselect]

/-- So a check checks the documents, -/
theorem runCommand_check (json : Bool) :
    runCommand setup settings s (.check files rules json)
      = check setup json t paths (s.log setup notes) :=
  withDocuments_eq hrules hselect (check setup json)

/-- and a conversion converts them on the disk. -/
theorem runCommand_convert (inPlace checkOnly verbose : Bool) :
    runCommand setup settings s
        (.convert files rules inPlace checkOnly verbose)
      = convert Disk.access setup ⟨inPlace, checkOnly, verbose⟩ t paths
        (s.log setup notes) :=
  withDocuments_eq hrules hselect _

end

end ComponentMarkdown.Cli
