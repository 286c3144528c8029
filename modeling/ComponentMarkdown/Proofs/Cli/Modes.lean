/-
The commands agree with each other. A check, a conversion that only checks,
a conversion to the output and one in place go through the documents in two
loops that share nothing but the transformer. They come to the same: what
one reports as changing is what another replaces, and what is written into
the files is what would have been written to the output (`ModesAgree`).

That the files named are those whose contents differ rests on more than the
loops. A change is reported because something was counted, and it takes the
supply of the text to see that the text is then another one.
-/
import ComponentMarkdown.Proofs.Cli.InPlace
import ComponentMarkdown.Proofs.Cli.Reports
import ComponentMarkdown.Proofs.Transformer.Changed

namespace ComponentMarkdown.Cli

open Files

-- ====================================================== known rules

/-- The rules of a chosen pipeline are known. -/
theorem mem_rules_of_pipeline {names : List String} {p : Pipeline}
    (h : Registry.pipeline names = .ok p) :
    ∀ rule ∈ p.rules, rule ∈ Registry.rules := by
  unfold Registry.pipeline at h
  split at h
  · cases h
    exact fun rule hrule => hrule
  · split at h
    · cases h
    · cases h
      exact fun rule hrule => (List.mem_filter.1 hrule).1

/-- Whatever is chosen, its rules are known. -/
theorem mem_rules_of_chooseTransformer {settings : Settings}
    {rules : List String} {t : Transformer}
    (h : chooseTransformer settings rules = .ok t) :
    ∀ rule ∈ t.pipeline.rules, rule ∈ Registry.rules := by
  have hpipeline {names : List String} {suffix : String}
      (h : (Registry.pipeline names).map (Transformer.mk suffix) = .ok t) :
      ∀ rule ∈ t.pipeline.rules, rule ∈ Registry.rules := by
    cases hp : Registry.pipeline names with
    | error fault =>
      rw [hp] at h
      cases h
    | ok p =>
      rw [hp] at h
      cases h
      exact mem_rules_of_pipeline hp
  unfold chooseTransformer at h
  split at h
  · exact hpipeline h
  · exact hpipeline h

-- ======================================================== the agreement

/-- The documents that a conversion changes, in order. -/
def changing (t : Transformer) (d : Disk) (paths : List String) :
    List String :=
  paths.filter fun path => (recordOf t d path).wouldChange

/-- What the commands have in common on documents. `checked` is the end of
a check, with its option for JSON, `converted` that of a conversion by its
mode, and `written` is the disk behind a conversion in place. -/
structure ModesAgree (setup : Setup) (t : Transformer) (paths : List String)
    (s : Session) (checked : Bool → Ending) (converted : ConvertMode → Ending)
    (written : Disk) : Prop where
  /-- A check names the changing documents and how much is rewritten in
  each, and then gives the summary. -/
  listed : (checked false).session.output
    = s.output
      ++ String.join ((changing t s.disk paths).map fun path =>
        rewriteText (styled "31" setup.color "✗") path
          (recordOf t s.disk path).tally.total)
      ++ summaryText setup.color
        ((paths.map (recordOf t s.disk)).foldl CheckSummary.add .empty)
  /-- In JSON, a check writes a record for every document, which says
  whether it is changing. -/
  recorded : ∃ text, (checked true).session.output = s.output ++ text
    ∧ IsRecords (paths.map fun path =>
      ⟨path, path ∈ changing t s.disk paths,
        (recordOf t s.disk path).tally⟩) text
  /-- A conversion that only checks reports the changing documents as to be
  fixed. -/
  wouldFix : ∀ inPlace verbose,
    (converted ⟨inPlace, true, verbose⟩).session.errors
      = s.errors
        ++ String.join (paths.map fun path =>
          (if verbose then "Processing: " ++ path ++ "\n" else "")
            ++ logText setup (t.journal (textOf s.disk path) path)
            ++ if path ∈ changing t s.disk paths then
                rewriteText "Would fix" path
                    (recordOf t s.disk path).tally.total
                  ++ countText setup.color
                    (recordOf t s.disk path).tally.entries
              else if verbose then
                "  " ++ styled "32" setup.color "✓" ++ " unchanged\n"
              else "")
        ++ logText setup [Log.finished (changing t s.disk paths).length]
  /-- The files that hold something else behind a conversion in place are
  the changing documents. -/
  differ : ∀ place,
    written.root.contentsAt place ≠ s.disk.root.contentsAt place
      ↔ ∃ path ∈ changing t s.disk paths, s.disk.find path = .ok place
  /-- All documents can still be read. -/
  readable : ∀ path ∈ paths, IsText written path
  /-- What is written to the output is what a conversion in place leaves in
  the files, document after document. -/
  printed : ∀ verbose,
    (converted ⟨false, false, verbose⟩).session.output
      = s.output ++ String.join
        (paths.map fun path => String.ofList (textOf written path))
  /-- A check tells by its exit code whether any document is changing. -/
  exitCode : ∀ json,
    (checked json).exitCode = if changing t s.disk paths = [] then 0 else 1
  /-- A check leaves the disk alone. -/
  checkKeeps : ∀ json, (checked json).session.disk = s.disk
  /-- So does a conversion to the output, or one that only checks, also if it
  is to be in place. -/
  convertKeeps : ∀ mode : ConvertMode, mode.inPlace = false ∨ mode.check = true →
    (converted mode).session.disk = s.disk

-- ===================================================== the four modes

variable {setup : Setup} {t : Transformer} {d : Disk} {paths : List String}

theorem recordOf_path (path : String) : (recordOf t d path).path = path := by
  unfold recordOf CheckRecord.ofDocument
  split <;> rfl

/-- A document is one that changes exactly if its record says so. -/
theorem mem_changing_iff {path : String} (h : path ∈ paths) :
    path ∈ changing t d paths ↔ (recordOf t d path).wouldChange = true := by
  unfold changing
  rw [List.mem_filter]
  exact and_iff_right h

theorem decide_mem_changing {path : String} (h : path ∈ paths) :
    decide (path ∈ changing t d paths) = (recordOf t d path).wouldChange := by
  rw [Bool.eq_iff_iff, decide_eq_true_iff]
  exact mem_changing_iff h

/-- The text of a changing document becomes another one. -/
theorem newText_ne (ht : ∀ rule ∈ t.pipeline.rules, rule ∈ Registry.rules)
    {path : String} (h : (recordOf t d path).wouldChange = true) :
    newText t d path ≠ textOf d path := by
  cases htransform : t.transform (textOf d path) path with
  | unchanged =>
    rw [(found_of_unchanged htransform).1] at h
    cases h
  | changed text tally =>
    rw [(found_of_changed htransform).2]
    exact Transformer.ne_of_transform_eq_changed ht htransform

/-- A file that none of the changing documents leads to is as before, also if
another document does. -/
theorem Converted.kept_of_changing {d' : Disk} (h : Converted t d paths d')
    (hread : ∀ path ∈ paths, IsText d path) {place : Place}
    (hplace : ∀ path ∈ changing t d paths, d.find path ≠ .ok place) :
    d'.root.contentsAt place = d.root.contentsAt place := by
  by_cases hlead : ∃ path ∈ paths, d.find path = .ok place
  · obtain ⟨path, hmem, hfind⟩ := hlead
    have hkeeps : (recordOf t d path).wouldChange = false := by
      rw [Bool.eq_false_iff]
      exact fun hchange => hplace path ((mem_changing_iff hmem).2 hchange) hfind
    rw [h.converted path hmem place hfind, newText_of_keeps hkeeps,
      contentsAt_of_isText (hread path hmem) hfind]
  · exact h.kept place fun path hmem hfind => hlead ⟨path, hmem, hfind⟩

/-- A file that a changing document leads to holds something else. -/
theorem Converted.ne_of_changing {d' : Disk} (h : Converted t d paths d')
    (ht : ∀ rule ∈ t.pipeline.rules, rule ∈ Registry.rules)
    (hread : ∀ path ∈ paths, IsText d path) {path : String} {place : Place}
    (hpath : path ∈ changing t d paths) (hfind : d.find path = .ok place) :
    d'.root.contentsAt place ≠ d.root.contentsAt place := by
  obtain ⟨hmem, hchange⟩ := List.mem_filter.1 hpath
  rw [h.converted path hmem place hfind,
    contentsAt_of_isText (hread path hmem) hfind]
  exact fun heq => newText_ne ht hchange
    (Contents.text.inj (Option.some.inj heq))

/-- So the files that hold something else are those of the changing
documents. -/
theorem Converted.ne_iff {d' : Disk} (h : Converted t d paths d')
    (ht : ∀ rule ∈ t.pipeline.rules, rule ∈ Registry.rules)
    (hread : ∀ path ∈ paths, IsText d path) (place : Place) :
    d'.root.contentsAt place ≠ d.root.contentsAt place
      ↔ ∃ path ∈ changing t d paths, d.find path = .ok place := by
  constructor
  · intro hplace
    by_contra hnone
    exact hplace (h.kept_of_changing hread fun path hpath hfind =>
      hnone ⟨path, hpath, hfind⟩)
  · rintro ⟨path, hpath, hfind⟩
    exact h.ne_of_changing ht hread hpath hfind

/-- A converted document is read as its new text. -/
theorem Converted.read_newText {d' : Disk} (h : Converted t d paths d')
    (hread : ∀ path ∈ paths, IsText d path) {path : String}
    (hpath : path ∈ paths) : d'.read path = .ok (newText t d path) := by
  obtain ⟨place, hfind, -⟩ :=
    Disk.read_eq_ok_iff.1 (read_of_isText (hread path hpath))
  exact Disk.read_eq_ok_iff.2 ⟨place, (h.shape.find_eq path).trans hfind,
    h.converted path hpath place hfind⟩

/-- The summary of a check counts the changing documents. -/
theorem changing_foldl_add (found : CheckSummary) :
    ((paths.map (recordOf t d)).foldl CheckSummary.add found).changing
      = found.changing + (changing t d paths).length := by
  induction paths generalizing found with
  | nil => rfl
  | cons path rest ih =>
    rw [List.map_cons, List.foldl_cons, ih]
    unfold changing CheckSummary.add
    rw [List.filter_cons]
    cases (recordOf t d path).wouldChange
    · rfl
    · simp only [if_true, List.length_cons]
      omega

/-- What a check shows without JSON is about the changing documents. -/
theorem join_shownRecord_lines :
    String.join (paths.map fun path =>
        shownRecord setup false (recordOf t d path))
      = String.join ((changing t d paths).map fun path =>
        rewriteText (styled "31" setup.color "✗") path
          (recordOf t d path).tally.total) := by
  have hmark : Style.red.apply setup.color "✗" = styled "31" setup.color "✗" :=
    rfl
  induction paths with
  | nil => rfl
  | cons path rest ih =>
    rw [List.map_cons, String.join_cons, ih]
    unfold changing shownRecord
    rw [List.filter_cons, recordOf_path, changeLine_append, hmark]
    cases (recordOf t d path).wouldChange
    · rfl
    · exact String.join_cons.symm

/-- With JSON, it shows of every document whether it is changing. -/
theorem join_shownRecord_json (setup : Setup) :
    String.join (paths.map fun path =>
        shownRecord setup true (recordOf t d path))
      = unlines (paths.map fun path =>
        (CheckRecord.mk path (path ∈ changing t d paths)
          (recordOf t d path).tally).json) := by
  have hshown : ∀ path ∈ paths, shownRecord setup true (recordOf t d path)
      = (CheckRecord.mk path (path ∈ changing t d paths)
        (recordOf t d path).tally).json ++ "\n" := by
    intro path hpath
    have hrecord : CheckRecord.mk path (path ∈ changing t d paths)
        (recordOf t d path).tally = recordOf t d path := by
      have heta : recordOf t d path = ⟨(recordOf t d path).path,
          (recordOf t d path).wouldChange, (recordOf t d path).tally⟩ := rfl
      rw [decide_mem_changing hpath, heta, recordOf_path]
    rw [hrecord]
    exact if_pos rfl
  rw [List.map_congr_left hshown, unlines, List.map_map]
  rfl

/-- What a conversion that only checks remarks on a document. -/
theorem remarks_of_check (setup : Setup) (inPlace verbose : Bool)
    {path : String} (h : path ∈ paths) :
    ConvertMode.remarks ⟨inPlace, true, verbose⟩ setup t d path
      = (if verbose then "Processing: " ++ path ++ "\n" else "")
        ++ logText setup (t.journal (textOf d path) path)
        ++ if path ∈ changing t d paths then
            rewriteText "Would fix" path (recordOf t d path).tally.total
              ++ countText setup.color (recordOf t d path).tally.entries
          else if verbose then
            "  " ++ styled "32" setup.color "✓" ++ " unchanged\n"
          else "" := by
  have hprocessing : unlines (if verbose then ["Processing: " ++ path] else [])
      = if verbose then "Processing: " ++ path ++ "\n" else "" := by
    cases verbose
    · rfl
    · exact (unlines_cons _ _).trans String.append_empty
  unfold ConvertMode.remarks ConvertMode.found
  rw [recordOf_path, ← decide_mem_changing h, hprocessing]
  congr 1
  by_cases hchange : path ∈ changing t d paths
  · simp only [hchange, decide_true, if_true, Bool.or_true]
    rw [unlines_cons, changeLine_append, unlines_countLines]
  · simp only [hchange, decide_false, Bool.false_eq_true, if_false]
    cases verbose
    · rfl
    · rw [if_pos rfl, if_pos rfl, unlines_cons, unlines_nil,
        String.append_empty, String.append_assoc]
      rfl

section

variable {u : Session} (hread : ∀ path ∈ paths, IsText u.disk path)

include hread

/-- What a check reports, in the mode that is asked for. -/
theorem check_eq (json : Bool) :
    check setup json t paths u
      = ⟨if changing t u.disk paths = [] then 0 else 1,
        ⟨u.output
            ++ String.join (paths.map fun path =>
              shownRecord setup json (recordOf t u.disk path))
            ++ unlines (if json then []
              else CheckSummary.lines
                ((paths.map (recordOf t u.disk)).foldl CheckSummary.add
                  .empty) setup.color),
          u.errors ++ String.join (paths.map fun path =>
            logText setup (t.journal (textOf u.disk path) path)),
          u.disk⟩⟩ := by
  have hfound : ((paths.map (recordOf t u.disk)).foldl CheckSummary.add
      .empty).changing = 0 + (changing t u.disk paths).length :=
    changing_foldl_add .empty
  have hcode : (if 0 < (changing t u.disk paths).length then 1 else 0)
      = if changing t u.disk paths = [] then 0 else 1 := by
    cases changing t u.disk paths <;> rfl
  unfold check
  rw [checkAll_eq hread]
  dsimp only
  rw [hfound, ← hcode, Session.foldl_printLine]
  cases json <;> simp [CheckSummary.empty, unlines_nil]

/-- A conversion that replaces nothing prints what its mode prints of each
document, and leaves the disk. -/
theorem convert_eq {m : ConvertMode} (hm : m.replaces = false) :
    convert Disk.access setup m t paths u
      = ⟨0, ⟨u.output ++ String.join (paths.map (m.printed t u.disk)),
          u.errors ++ String.join (paths.map (m.remarks setup t u.disk))
            ++ logText setup [Log.finished (changing t u.disk paths).length],
          u.disk⟩⟩ := by
  unfold convert changing
  rw [ConvertMode.all_eq hm hread, List.countP_eq_length_filter]
  rfl

/-- A conversion in place that does not fail converts the documents. -/
theorem converted_convert
    (hne : paths.Pairwise fun a b => u.disk.find a ≠ u.disk.find b)
    {verbose : Bool}
    (hwrites : (convert Disk.access setup ⟨true, false, verbose⟩ t paths
      u).exitCode = 0) :
    Converted t u.disk paths
      (convert Disk.access setup ⟨true, false, verbose⟩ t paths
        u).session.disk := by
  cases hall : ConvertMode.all ⟨true, false, verbose⟩ Disk.access setup t
      paths u with
  | mk v result =>
    unfold convert at hwrites ⊢
    rw [hall] at hwrites ⊢
    cases result with
    | error failure => cases hwrites
    | ok count =>
      show Converted t u.disk paths v.disk
      exact converted_all rfl hread hne hall

/-- The commands agree on a list of documents, if they are texts in
different files and a conversion in place does not fail on them. -/
theorem modesAgree_of_texts
    (ht : ∀ rule ∈ t.pipeline.rules, rule ∈ Registry.rules)
    (hne : paths.Pairwise fun a b => u.disk.find a ≠ u.disk.find b)
    (verbose : Bool)
    (hwrites : (convert Disk.access setup ⟨true, false, verbose⟩ t paths
      u).exitCode = 0) :
    ModesAgree setup t paths u (fun json => check setup json t paths u)
      (fun mode => convert Disk.access setup mode t paths u)
      (convert Disk.access setup ⟨true, false, verbose⟩ t paths
        u).session.disk := by
  have hwritten := converted_convert hread hne hwrites
  generalize (convert Disk.access setup ⟨true, false, verbose⟩ t paths
    u).session.disk = written at hwritten ⊢
  have hnew : ∀ path ∈ paths, written.read path = .ok (newText t u.disk path) :=
    fun path => hwritten.read_newText hread
  constructor
  case listed =>
    rw [check_eq hread, ← join_shownRecord_lines, ← unlines_lines]
    rfl
  case recorded =>
    refine ⟨_, ?_, isRecords_json _⟩
    rw [check_eq hread, List.map_map]
    dsimp only
    rw [if_pos rfl, unlines_nil, String.append_empty,
      join_shownRecord_json setup]
    rfl
  case wouldFix =>
    intro inPlace verbose
    rw [convert_eq hread (by simp [ConvertMode.replaces])]
    dsimp only
    rw [List.map_congr_left fun path hpath =>
      remarks_of_check setup inPlace verbose hpath]
  case differ => exact hwritten.ne_iff ht hread
  case readable => exact fun path hpath => ⟨_, hnew path hpath⟩
  case printed =>
    intro verbose
    rw [convert_eq hread rfl]
    have htexts : ∀ path ∈ paths, ConvertMode.printed ⟨false, false, verbose⟩
        t u.disk path = String.ofList (textOf written path) :=
      fun path hpath => by
        rw [textOf, hnew path hpath]
        rfl
    rw [List.map_congr_left htexts]
  case exitCode =>
    intro json
    rw [check_eq hread]
  case checkKeeps =>
    intro json
    rw [check_eq hread]
  case convertKeeps =>
    intro m hm
    have hreplaces : m.replaces = false := by
      unfold ConvertMode.replaces
      rcases hm with hm | hm <;> simp [hm]
    rw [convert_eq hread hreplaces]

end

/-- The commands agree on documents that are texts in different files, if a
conversion in place does not fail on them. -/
theorem modesAgree {setup : Setup} {settings : Settings} {s : Session}
    {files rules : List String} {t : Transformer} {notes : List Log.Entry}
    {paths : List String} (verbose : Bool)
    (hrules : chooseTransformer settings rules = .ok t)
    (hselect : Selection.select s.disk settings files = (notes, .ok paths))
    (hread : ∀ path ∈ paths, IsText s.disk path)
    (hne : paths.Pairwise fun a b => s.disk.find a ≠ s.disk.find b)
    (hwrites : (runCommand setup settings s
      (.convert files rules true false verbose)).exitCode = 0) :
    ModesAgree setup t paths (s.log setup notes)
      (fun json => runCommand setup settings s (.check files rules json))
      (fun mode => runCommand setup settings s
        (.convert files rules mode.inPlace mode.check mode.verbose))
      (runCommand setup settings s
        (.convert files rules true false verbose)).session.disk := by
  simp only [runCommand_check hrules hselect,
    runCommand_convert hrules hselect] at hwrites ⊢
  have hknown := mem_rules_of_chooseTransformer hrules
  have hdisk : (s.log setup notes).disk = s.disk := rfl
  rw [← hdisk] at hread hne
  exact modesAgree_of_texts hread hknown hne verbose hwrites

/-- A disk with two documents, one of them with something to rewrite. -/
def twoDocuments : Disk :=
  ⟨.dir [("a.md", .file (.text "<a frameBorder>".toList)),
    ("b.md", .file (.text "b".toList))], []⟩

/-- All that has to hold holds of two documents, the first of which is
changing. -/
theorem modesAgree_twoDocuments :
    changing .standard twoDocuments ["a.md", "b.md"] = ["a.md"]
      ∧ ∃ written, ModesAgree ⟨.standard, false⟩ .standard ["a.md", "b.md"]
        ((Session.start twoDocuments).log ⟨.standard, false⟩ [])
        (fun json => runCommand ⟨.standard, false⟩ .standard
          (.start twoDocuments) (.check ["a.md", "b.md"] [] json))
        (fun mode => runCommand ⟨.standard, false⟩ .standard
          (.start twoDocuments) (.convert ["a.md", "b.md"] []
            mode.inPlace mode.check mode.verbose))
        written := by
  refine ⟨by decide +kernel, _,
    modesAgree false rfl ?_ ?_ ?_ ?_⟩
  · rfl
  · intro path hpath
    rcases List.mem_cons.1 hpath with rfl | hpath
    · exact ⟨_, rfl⟩
    · rw [List.mem_singleton] at hpath
      subst hpath
      exact ⟨_, rfl⟩
  · have hne : twoDocuments.find "a.md" ≠ twoDocuments.find "b.md" := by
      intro heq
      cases heq
    exact List.pairwise_pair.2 hne
  · decide +kernel

end ComponentMarkdown.Cli
