/-
What a check sums up. Its records in JSON and its summary come from two
branches of one loop, which in one form adds up what in the other it writes
down: the summary is the sum of the records (`CheckSummary.Sums`), file by
file, rule by rule and in total, and since the records of the documents do
not depend on each other, it is so in whatever order they come
(`tallies_sum_in_any_order`).

A document that stays as it is counts nothing. That is why the summary may
leave its tally out, and why the count of clean files is what remains of all
files.
-/
import ComponentMarkdown.Proofs.Cli.Modes
import ComponentMarkdown.Proofs.Tally.Counters

namespace ComponentMarkdown.Cli

open Files

-- ======================================================== the summary

/-- A summary that says of some records what they say together. -/
structure CheckSummary.Sums (found : CheckSummary)
    (records : List CheckRecord) : Prop where
  files : found.files = records.length
  changing : found.changing = records.countP (·.wouldChange)
  /-- Rule by rule. -/
  count : ∀ rule,
    found.tally.count rule = (records.map (·.tally.count rule)).sum
  total : found.tally.total = (records.map (·.tally.total)).sum

namespace CheckSummary

/-- The files that change are among all files, so the count of the others
does not go below zero. -/
theorem Sums.changing_le_files {found : CheckSummary}
    {records : List CheckRecord} (h : found.Sums records) :
    found.changing ≤ found.files := by
  rw [h.changing, h.files]
  exact List.countP_le_length

/-- What is clean are the documents that would not change. -/
theorem Sums.clean_eq_countP {found : CheckSummary}
    {records : List CheckRecord} (h : found.Sums records) :
    found.clean = records.countP fun r => !r.wouldChange := by
  have hsplit := List.length_eq_countP_add_countP (·.wouldChange) (l := records)
  simp only [Bool.not_eq_true, Bool.decide_eq_false] at hsplit
  rw [CheckSummary.clean, h.files, h.changing, hsplit]
  exact Nat.add_sub_cancel_left _ _

theorem sums_nil : CheckSummary.empty.Sums [] :=
  ⟨rfl, rfl, fun _ => rfl, rfl⟩

/-- Of each rule that rewrites anything, the sum is listed. -/
theorem Sums.mem_entries_iff {found : CheckSummary}
    {records : List CheckRecord} (h : found.Sums records) {rule : String}
    {n : Nat} : (rule, n) ∈ found.tally.entries
      ↔ n ≠ 0 ∧ n = (records.map (·.tally.count rule)).sum := by
  rw [Tally.mem_entries_iff, h.count, Nat.pos_iff_ne_zero]
  exact and_congr_right fun _ => eq_comm

/-- One more record is added to the sums. What stays as it is may be left
out, as long as it counts nothing. -/
theorem Sums.add {found : CheckSummary} {records : List CheckRecord}
    (h : found.Sums records) {r : CheckRecord}
    (hr : r.wouldChange = false → r.tally = .empty) :
    (found.add r).Sums (records ++ [r]) := by
  unfold CheckSummary.add
  cases hchange : r.wouldChange with
  | true =>
    constructor
    case files => simp [h.files]
    case changing => simp [h.changing, hchange]
    case count =>
      intro rule
      simp [Tally.count_merge, h.count]
    case total => simp [Tally.total_merge, h.total]
  | false =>
    have htally := hr hchange
    constructor
    case files => simp [h.files]
    case changing => simp [h.changing, hchange]
    case count =>
      intro rule
      simp [htally, h.count]
    case total => simp [htally, h.total]

/-- Adding records one by one keeps the sums. -/
theorem Sums.foldl {found : CheckSummary} {before records : List CheckRecord}
    (h : found.Sums before)
    (hrecords : ∀ r ∈ records, r.wouldChange = false → r.tally = .empty) :
    (records.foldl CheckSummary.add found).Sums (before ++ records) := by
  induction records generalizing found before with
  | nil => simpa using h
  | cons r records ih =>
    obtain ⟨hr, hrecords⟩ := List.forall_mem_cons.1 hrecords
    rw [List.append_cons]
    exact ih (h.add hr) hrecords

/-- Records sum up to one summary, whatever their order. -/
theorem Sums.eq_of_perm {found found' : CheckSummary}
    {records records' : List CheckRecord} (h : found.Sums records)
    (h' : found'.Sums records') (hperm : records.Perm records') :
    found = found' := by
  have hfiles : found.files = found'.files := by
    rw [h.files, h'.files, hperm.length_eq]
  have hchanging : found.changing = found'.changing := by
    rw [h.changing, h'.changing, hperm.countP_eq]
  have htally : found.tally = found'.tally := by
    refine Tally.ext_count fun rule => ?_
    rw [h.count, h'.count]
    exact (hperm.map _).sum_nat
  cases found
  cases found'
  cases hfiles
  cases hchanging
  cases htally
  rfl

end CheckSummary

-- ==================================================== documents checked

section

variable {setup : Setup} {t : Transformer} {d : Disk} {paths : List String}

/-- A document that stays as it is counts nothing. -/
theorem tally_recordOf {path : String}
    (h : (recordOf t d path).wouldChange = false) :
    (recordOf t d path).tally = .empty := by
  cases htransform : t.transform (textOf d path) path with
  | unchanged => rw [(found_of_unchanged htransform).1]
  | changed text tally =>
    rw [(found_of_changed htransform).1] at h
    cases h

/-- What a check has found in the end. -/
def summaryOf (t : Transformer) (d : Disk) (paths : List String) :
    CheckSummary :=
  (paths.map (recordOf t d)).foldl CheckSummary.add .empty

/-- The summary holds the sums of its records. -/
theorem sums_summaryOf (t : Transformer) (d : Disk) (paths : List String) :
    (summaryOf t d paths).Sums (paths.map (recordOf t d)) := by
  refine CheckSummary.sums_nil.foldl ?_
  rw [List.forall_mem_map]
  exact fun path _ => tally_recordOf

/-- The order of the records does not matter to the summary. -/
theorem summaryOf_perm {order : List String} (h : order.Perm paths) :
    summaryOf t d order = summaryOf t d paths :=
  (sums_summaryOf t d order).eq_of_perm (sums_summaryOf t d paths) (h.map _)

/-- What a check of texts writes in JSON: a record for each document. -/
theorem output_check_json {u : Session}
    (hread : ∀ path ∈ paths, IsText u.disk path) :
    (check setup true t paths u).session.output
      = u.output
        ++ unlines ((paths.map (recordOf t u.disk)).map CheckRecord.json) := by
  rw [check_eq hread]
  dsimp only
  rw [if_pos rfl, unlines_nil, String.append_empty, unlines, List.map_map,
    List.map_map]
  rfl

/-- What it writes otherwise: the changing documents, and the summary. -/
theorem output_check_lines {u : Session}
    (hread : ∀ path ∈ paths, IsText u.disk path) :
    (check setup false t paths u).session.output
      = u.output
        ++ String.join (((paths.map (recordOf t u.disk)).filter
          (·.wouldChange)).map fun r =>
            rewriteText (styled "31" setup.color "✗") r.path r.tally.total)
        ++ summaryText setup.color (summaryOf t u.disk paths) := by
  have hrecords : ((paths.map (recordOf t u.disk)).filter
        (·.wouldChange)).map (fun r =>
          rewriteText (styled "31" setup.color "✗") r.path r.tally.total)
      = (changing t u.disk paths).map fun path =>
        rewriteText (styled "31" setup.color "✗") path
          (recordOf t u.disk path).tally.total := by
    rw [List.filter_map, List.map_map]
    refine List.map_congr_left fun path _ => ?_
    rw [Function.comp_apply, recordOf_path]
  rw [check_eq hread, hrecords, ← join_shownRecord_lines, ← unlines_lines]
  rfl

/-- What is shown of a document leaves the disk alone. -/
theorem disk_showRecord (json : Bool) (r : CheckRecord) (u : Session) :
    (showRecord setup json r u).disk = u.disk := by
  unfold showRecord
  split
  · rfl
  · split <;> rfl

/-- A document that cannot be read ends a check before there is a summary. -/
theorem exists_checkAll_eq_error {json : Bool} {found : CheckSummary}
    {u : Session} (h : ∃ path ∈ paths, ¬IsText u.disk path) :
    ∃ v failure,
      checkAll setup t json found paths u = (v, .error failure) := by
  induction paths generalizing found u with
  | nil =>
    obtain ⟨path, hpath, -⟩ := h
    cases hpath
  | cons path rest ih =>
    unfold checkAll
    cases hread : u.disk.read path with
    | error fault => exact ⟨_, _, rfl⟩
    | ok source =>
      refine ih ?_
      obtain ⟨other, hother, hnot⟩ := h
      rcases List.mem_cons.1 hother with rfl | hother
      · exact absurd ⟨source, hread⟩ hnot
      · refine ⟨other, hother, ?_⟩
        rw [disk_showRecord]
        exact hnot

end

/-- Tallies do not depend on order. After any steps, a counter holds exactly
the sums of what reached it, so no entry is zero, and it is empty exactly if
its total is zero; and tallies merge to the same in any order and grouping.
So a check of the same texts has one summary, whatever order the documents
come in: in JSON it writes records that the summary is the sum of, and
otherwise it names the documents that change and gives that summary, in
which the files that change are among all files. Without a summary a check
ends only if a document is no text. -/
theorem tallies_sum_in_any_order :
    (∀ (steps : List Counters.Step) (counter : String),
      let held := Counters.run steps counter
      (∀ rule n, (rule, n) ∈ held.entries
        ↔ n ≠ 0 ∧ n = Tally.amount rule (Counters.reached steps counter))
      ∧ (held.isEmpty = true ↔ held.total = 0))
    ∧ (∀ m m' : Tally.Merging, m.tallies.Perm m'.tallies →
      m.result = m'.result)
    ∧ ∀ (setup : Setup) (settings : Settings) (s : Session)
        (rules : List String) (t : Transformer) (documents : List String),
      chooseTransformer settings rules = .ok t →
      ∃ found : CheckSummary, found.changing ≤ found.files
        ∧ ∀ (files : List String) (notes : List Log.Entry)
            (paths : List String),
          Selection.select s.disk settings files = (notes, .ok paths) →
          paths.Perm documents →
          let checked := fun json =>
            runCommand setup settings s (.check files rules json)
          let records := paths.map (recordOf t s.disk)
          ((∀ path ∈ documents, IsText s.disk path) →
            found.Sums records
            ∧ (∀ rule n, (rule, n) ∈ found.tally.entries
              ↔ n ≠ 0 ∧ n = (records.map (·.tally.count rule)).sum)
            ∧ found.clean = (records.countP fun r => !r.wouldChange)
            ∧ (∃ text, (checked true).session.output = s.output ++ text
              ∧ IsRecords records text)
            ∧ (checked false).session.output
              = s.output
                ++ String.join ((records.filter (·.wouldChange)).map fun r =>
                  rewriteText (styled "31" setup.color "✗") r.path
                    r.tally.total)
                ++ summaryText setup.color found)
          ∧ ((∃ path ∈ documents, ¬IsText s.disk path) →
            ∀ json, ∃ failure u, checked json = .failed failure u) := by
  refine ⟨fun steps counter => ⟨fun rule n => ?_, ?_⟩,
    fun m m' => Tally.Merging.result_eq_of_perm,
    fun setup settings s rules t documents hrules => ?_⟩
  · rw [Counters.mem_entries_run_iff, Nat.pos_iff_ne_zero]
    exact and_congr_right fun _ => eq_comm
  · exact (Tally.total_eq_zero_iff _).symm
  · refine ⟨summaryOf t s.disk documents,
      (sums_summaryOf t s.disk documents).changing_le_files,
      fun files notes paths hselect hperm => ?_⟩
    intro checked records
    have hchecked (json : Bool) : checked json
        = check setup json t paths (s.log setup notes) :=
      runCommand_check hrules hselect json
    constructor
    · intro hread
      have htexts : ∀ path ∈ paths, IsText (s.log setup notes).disk path :=
        fun path hpath => hread path (hperm.mem_iff.1 hpath)
      have hsums := sums_summaryOf t s.disk paths
      rw [summaryOf_perm hperm] at hsums
      refine ⟨hsums, fun rule n => hsums.mem_entries_iff,
        hsums.clean_eq_countP, ⟨_, ?_, isRecords_json records⟩, ?_⟩
      · rw [hchecked, output_check_json htexts]
        rfl
      · rw [hchecked, output_check_lines htexts, ← summaryOf_perm hperm]
        rfl
    · rintro ⟨path, hpath, hnot⟩ json
      have hfail : ∃ u failure, checkAll setup t json .empty paths
          (s.log setup notes) = (u, .error failure) :=
        exists_checkAll_eq_error ⟨path, hperm.mem_iff.2 hpath, hnot⟩
      obtain ⟨u, failure, hfail⟩ := hfail
      refine ⟨failure, u, ?_⟩
      rw [hchecked, check, hfail]

/-- Two documents are summed up whichever of them comes first. -/
theorem tallies_sum_in_any_order_twoDocuments :
    ["b.md", "a.md"].Perm ["a.md", "b.md"]
      ∧ ∃ found : CheckSummary,
        found.files = 2 ∧ found.changing = 1 ∧ found.clean = 1
          ∧ found.tally.count "attribute-casing" = 1 ∧ found.tally.total = 1
          ∧ ∀ paths, paths = ["a.md", "b.md"] ∨ paths = ["b.md", "a.md"] →
            (runCommand ⟨.standard, false⟩ .standard (.start twoDocuments)
                (.check paths [] false)).session.output
              = rewriteText "✗" "a.md" 1 ++ summaryText false found
            ∧ IsRecords (paths.map (recordOf .standard twoDocuments))
              (runCommand ⟨.standard, false⟩ .standard (.start twoDocuments)
                (.check paths [] true)).session.output := by
  have hperm : ["b.md", "a.md"].Perm ["a.md", "b.md"] := .swap _ _ _
  have hread : ∀ path ∈ ["a.md", "b.md"], IsText twoDocuments path :=
    List.forall_mem_cons.2 ⟨⟨_, rfl⟩, List.forall_mem_singleton.2 ⟨_, rfl⟩⟩
  obtain ⟨found, -, hall⟩ := tallies_sum_in_any_order.2.2 ⟨.standard, false⟩
    .standard (.start twoDocuments) [] .standard ["a.md", "b.md"] rfl
  obtain ⟨hsums, -, hclean, -, -⟩ :=
    (hall ["a.md", "b.md"] [] _ rfl (.refl _)).1 hread
  refine ⟨hperm, found, hsums.files, ?_, ?_, ?_, ?_, ?_⟩
  · rw [hsums.changing]
    decide +kernel
  · rw [hclean]
    decide +kernel
  · rw [hsums.count]
    decide +kernel
  · rw [hsums.total]
    decide +kernel
  · intro paths hpaths
    have hselect : Selection.select twoDocuments .standard paths
        = ([], .ok paths) := by
      rcases hpaths with rfl | rfl <;> rfl
    have horder : paths.Perm ["a.md", "b.md"] := by
      rcases hpaths with rfl | rfl
      · exact .refl _
      · exact hperm
    have hnamed : ((paths.map (recordOf .standard twoDocuments)).filter
          (·.wouldChange)).map (fun r =>
            rewriteText (styled "31" false "✗") r.path r.tally.total)
        = [rewriteText "✗" "a.md" 1] := by
      rcases hpaths with rfl | rfl <;> decide +kernel
    obtain ⟨-, -, -, ⟨text, hjson, hrecords⟩, hlines⟩ :=
      (hall paths [] paths hselect horder).1 hread
    have hstart (rest : String) :
        (Session.start twoDocuments).output ++ rest = rest :=
      String.empty_append
    rw [hstart] at hjson
    refine ⟨?_, hjson ▸ hrecords⟩
    rw [hlines, String.append_assoc, hstart]
    exact congrArg (· ++ summaryText false found)
      (congrArg String.join hnamed)

end ComponentMarkdown.Cli
