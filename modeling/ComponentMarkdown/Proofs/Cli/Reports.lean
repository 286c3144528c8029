/-
What the reports of a check and a conversion read like, in plain text. The
lines about a document name it and say how much is rewritten; the summary
says how many files there are, how many change and how many do not, and how
often each rule and all of them together rewrite (`unlines_lines`).

A record in JSON is told by its tokens: whoever reads a line of them finds
the path, whether the document changes, and the counts, and nothing else
(`isRecords_json`).
-/
import ComponentMarkdown.Proofs.Cli.Documents
import ComponentMarkdown.Proofs.Json.Reading

namespace ComponentMarkdown.Cli

open Json

-- ======================================================= lines of text

/-- A text between the control sequences that start a style and end all, on
a terminal that shows them. -/
def styled (code : String) (shown : Bool) (s : String) : String :=
  if shown then "\x1b[" ++ code ++ "m" ++ s ++ "\x1b[0m" else s

/-- The line about a document that is rewritten, behind a mark or word. -/
def rewriteText (mark path : String) (total : Nat) : String :=
  "  " ++ mark ++ " " ++ path ++ " - " ++ toString total ++ " rewrite(s)\n"

/-- The lines about what each rule rewrites. -/
def countText (color : Bool) (counts : List (String × Nat)) : String :=
  String.join (counts.map fun e =>
    "    " ++ styled "36" color e.1 ++ ": " ++ toString e.2 ++ "\n")

/-- The summary of a check. -/
def summaryText (color : Bool) (found : CheckSummary) : String :=
  "\n" ++ styled "1" color "=== Summary ===" ++ "\n"
    ++ "Total files:         " ++ toString found.files ++ "\n"
    ++ "Files to rewrite:    " ++ toString found.changing ++ " "
    ++ (if found.changing = 0 then styled "32" color "✓"
        else styled "31" color "✗") ++ "\n"
    ++ "Clean files:         " ++ toString found.clean ++ " "
    ++ styled "32" color "✓" ++ "\n"
    ++ (if found.tally.entries = [] then ""
        else "\n" ++ styled "1" color "Rewrites by rule:" ++ "\n"
          ++ countText color found.tally.entries)
    ++ "\n" ++ "Total rewrites:      " ++ toString found.tally.total ++ "\n"

/-- The lines of two lists follow each other. -/
theorem unlines_append (a b : List String) :
    unlines (a ++ b) = unlines a ++ unlines b := by
  unfold unlines
  rw [List.map_append, String.join_append]

theorem changeLine_append (mark path : String) (t : Tally) :
    changeLine mark path t ++ "\n" = rewriteText mark path t.total := by
  unfold changeLine rewriteText
  rw [String.append_assoc]
  rfl

/-- The lines of the counts, one for each rule that counts. -/
theorem unlines_countLines (color : Bool) (t : Tally) :
    unlines (countLines color t) = countText color t.entries := by
  unfold unlines countLines countText
  rw [List.map_map]
  refine congrArg String.join (List.map_congr_left fun e _ => ?_)
  rfl

/-- The lines of a summary are its text. -/
theorem unlines_lines (color : Bool) (found : CheckSummary) :
    unlines (found.lines color) = summaryText color found := by
  have hmark : (if 0 < found.changing then Style.red.apply color "✗"
      else Style.green.apply color "✓")
      = if found.changing = 0 then styled "32" color "✓"
        else styled "31" color "✗" := by
    cases found.changing <;> rfl
  have hrules : unlines (if found.tally.isEmpty then []
      else ["", Style.bold.apply color "Rewrites by rule:"]
        ++ countLines color found.tally)
      = if found.tally.entries = [] then ""
        else "\n" ++ styled "1" color "Rewrites by rule:" ++ "\n"
          ++ countText color found.tally.entries := by
    unfold Tally.isEmpty
    simp only [List.isEmpty_iff]
    split
    · rfl
    · rw [unlines_append, unlines_countLines]
      rfl
  have htitle (s : String) : Style.bold.apply color s = styled "1" color s :=
    rfl
  have htick : Style.green.apply color "✓" = styled "32" color "✓" := rfl
  unfold CheckSummary.lines summaryText
  rw [unlines_append, unlines_append, hrules, hmark, htitle, htick]
  simp only [unlines_cons, unlines_nil, String.append_assoc,
    String.empty_append, String.append_empty, -String.reduceAppend]

-- ============================================================ records

/-- The members of an object that counts something by name. -/
def countTokens (counts : List (String × Nat)) : List Token :=
  [Token.mark ','].intercalate (counts.map fun e =>
    [.string e.1.toList, .mark ':', .number e.2])

/-- A record as an object: the path of the document, whether it changes, and
how much is rewritten in all and by each rule. -/
def CheckRecord.tokens (r : CheckRecord) : List Token :=
  [.mark '\x7b', .string "file_path".toList, .mark ':', .string r.path.toList,
    .mark ',', .string "would_change".toList, .mark ':', .bool r.wouldChange,
    .mark ',', .string "rewrites".toList, .mark ':', .number r.tally.total,
    .mark ',', .string "by_rule".toList, .mark ':', .mark '\x7b']
    ++ countTokens r.tally.entries ++ [.mark '\x7d', .mark '\x7d']

/-- Whether a text has a line for each of some records, in which nobody can
read another object than the record. -/
def IsRecords (records : List CheckRecord) (text : String) : Prop :=
  ∃ line : CheckRecord → String, text = unlines (records.map line)
    ∧ ∀ r, '\n' ∉ (line r).toList
      ∧ ∀ tokens, Reads (line r).toList tokens ↔ tokens = r.tokens

theorem reads_jsonBool (b : Bool) {rest : Text} {tokens : List Token}
    (h : Reads rest tokens) :
    Reads ((CheckRecord.jsonBool b).toList ++ rest) (.bool b :: tokens) := by
  cases b with
  | false => exact .cons rfl h
  | true => exact .cons rfl h

/-- One count is read, if no digit follows. -/
theorem reads_count (e : String × Nat) {rest : Text} {tokens : List Token}
    (hrest : ∀ c ∈ rest.head?, c.isDigit = false) (h : Reads rest tokens) :
    Reads ((quoted e.1 ++ ":" ++ toString e.2).toList ++ rest)
      ([.string e.1.toList, .mark ':', .number e.2] ++ tokens) := by
  have htext : (quoted e.1 ++ ":" ++ toString e.2).toList ++ rest
      = (quoted e.1).toList ++ ':' :: ((toString e.2).toList ++ rest) := by
    simp
  rw [htext]
  exact .string e.1 (.mark (by decide) (.number e.2 hrest h))

/-- The counts of a record are read up to its end. -/
theorem reads_counts (counts : List (String × Nat)) :
    Reads ((String.intercalate "," (counts.map fun e =>
        quoted e.1 ++ ":" ++ toString e.2)).toList ++ ['\x7d', '\x7d'])
      (countTokens counts ++ [.mark '\x7d', .mark '\x7d']) := by
  have hend : Reads ['\x7d', '\x7d'] [.mark '\x7d', .mark '\x7d'] :=
    .mark (by decide) (.mark (by decide) .nil)
  unfold countTokens
  induction counts with
  | nil => exact hend
  | cons e counts ih =>
    cases counts with
    | nil => exact reads_count e (by simp) hend
    | cons e' counts =>
      rw [List.map_cons, List.map_cons, List.map_cons, List.map_cons,
        String.intercalate_cons_cons, List.intercalate_cons_cons,
        ← List.map_cons (f := fun e : String × Nat =>
          quoted e.1 ++ ":" ++ toString e.2), String.toList_append,
        String.toList_append, List.append_assoc, List.append_assoc,
        List.append_assoc, List.append_assoc]
      exact reads_count e (by simp) (.mark (by decide) ih)

/-- A key is read with its colon. -/
theorem reads_key (key : String) {rest : Text} {tokens : List Token}
    (h : Reads rest tokens) :
    Reads ((quoted key).toList ++ ':' :: rest)
      (.string key.toList :: .mark ':' :: tokens) :=
  .string key (.mark (by decide) h)

/-- A record is written member by member. -/
theorem toList_json (r : CheckRecord) :
    r.json.toList
      = '\x7b' :: ((quoted "file_path").toList ++ ':' :: ((quoted r.path).toList
        ++ ',' :: ((quoted "would_change").toList ++ ':'
          :: ((CheckRecord.jsonBool r.wouldChange).toList
        ++ ',' :: ((quoted "rewrites").toList ++ ':'
          :: ((toString r.tally.total).toList
        ++ ',' :: ((quoted "by_rule").toList ++ ':' :: '\x7b'
          :: ((String.intercalate "," (r.tally.entries.map fun e =>
            quoted e.1 ++ ":" ++ toString e.2)).toList
        ++ ['\x7d', '\x7d'])))))))) := by
  have hpath : "\x7b\"file_path\":" = "\x7b" ++ quoted "file_path" ++ ":" := by
    decide +kernel
  have hchange : ",\"would_change\":" = "," ++ quoted "would_change" ++ ":" := by
    decide +kernel
  have htotal : ",\"rewrites\":" = "," ++ quoted "rewrites" ++ ":" := by
    decide +kernel
  have hrules : ",\"by_rule\":\x7b" = "," ++ quoted "by_rule" ++ ":\x7b" := by
    decide +kernel
  unfold CheckRecord.json
  rw [hpath, hchange, htotal, hrules]
  simp

/-- A record is read as its tokens. -/
theorem reads_json (r : CheckRecord) : Reads r.json.toList r.tokens := by
  have hrules := reads_key "by_rule"
    (.mark (c := '\x7b') (by decide) (reads_counts r.tally.entries))
  have htotal := reads_key "rewrites"
    (.number r.tally.total (by simp) (.mark (c := ',') (by decide) hrules))
  have hchange := reads_key "would_change"
    (reads_jsonBool r.wouldChange (.mark (c := ',') (by decide) htotal))
  have hpath := reads_key "file_path"
    (.string r.path (.mark (c := ',') (by decide) hchange))
  rw [toList_json]
  exact .mark (by decide) hpath

/-- The counts have no line end. -/
theorem not_mem_counts (counts : List (String × Nat)) :
    '\n' ∉ (String.intercalate "," (counts.map fun e =>
      quoted e.1 ++ ":" ++ toString e.2)).toList := by
  have hcount (e : String × Nat) :
      '\n' ∉ (quoted e.1 ++ ":" ++ toString e.2).toList := by
    rw [String.toList_append, String.toList_append, List.mem_append,
      List.mem_append, not_or, not_or]
    exact ⟨⟨not_mem_quoted _, by decide⟩, not_mem_toString _⟩
  induction counts with
  | nil => exact List.not_mem_nil
  | cons e counts ih =>
    cases counts with
    | nil => exact hcount e
    | cons e' counts =>
      rw [List.map_cons, List.map_cons, String.intercalate_cons_cons,
        ← List.map_cons (f := fun e : String × Nat =>
          quoted e.1 ++ ":" ++ toString e.2), String.toList_append,
        String.toList_append, List.mem_append, List.mem_append, not_or, not_or]
      exact ⟨⟨hcount e, by decide⟩, ih⟩

/-- A record is written on one line. -/
theorem not_mem_json (r : CheckRecord) : '\n' ∉ r.json.toList := by
  have hbool : '\n' ∉ (CheckRecord.jsonBool r.wouldChange).toList := by
    cases r.wouldChange <;> decide
  have htotal := not_mem_toString r.tally.total
  have hcounts := not_mem_counts r.tally.entries
  rw [toList_json]
  simp only [List.mem_cons, List.mem_append, not_or, not_mem_quoted, hbool,
    htotal, hcounts, not_false_eq_true, true_and]
  decide

/-- The lines of JSON that are written for records are such a text. -/
theorem isRecords_json (records : List CheckRecord) :
    IsRecords records (unlines (records.map CheckRecord.json)) :=
  ⟨CheckRecord.json, rfl, fun r => ⟨not_mem_json r, fun _ =>
    ⟨fun h => h.unique (reads_json r), fun h => h ▸ reads_json r⟩⟩⟩

end ComponentMarkdown.Cli
