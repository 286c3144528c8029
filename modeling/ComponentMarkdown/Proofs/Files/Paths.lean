/-
The directory that a file stands in, by its path. A path is followed by
those of its parts that name something, from the root or from the working
directory. Where a new file is put is worked out otherwise: the path is cut
off above the last part that names something and written anew. Both come to
the same start and the same parts (`named_directoryOf`), so the directory
found is the one that the path leads through.
-/
import ComponentMarkdown.Files.Disk
import Mathlib.Data.List.DropRight

namespace ComponentMarkdown.Files

-- ============================================================== slashes

theorem splitSlash_eq_splitOn (t : Text) : splitSlash t = t.splitOn '/' := by
  induction t with
  | nil => rfl
  | cons c t ih =>
    rw [List.splitOn_cons_eq_if_modifyHead, splitSlash, ih]
    by_cases hc : c = '/'
    · rw [if_pos hc, if_pos (beq_iff_eq.2 hc)]
    · rw [if_neg hc, if_neg (fun h => hc (beq_iff_eq.1 h))]
      cases hsplit : t.splitOn '/' with
      | nil => exact absurd hsplit (List.splitOn_ne_nil _ _)
      | cons part more => rfl

theorem splitSlash_ne_nil (t : Text) : splitSlash t ≠ [] := by
  rw [splitSlash_eq_splitOn]
  exact List.splitOn_ne_nil _ _

theorem not_mem_of_mem_splitSlash {t part : Text} (h : part ∈ splitSlash t) :
    '/' ∉ part := by
  induction t generalizing part with
  | nil =>
    rw [splitSlash, List.mem_singleton] at h
    rw [h]
    exact List.not_mem_nil
  | cons c t ih =>
    unfold splitSlash at h
    split at h
    · rcases List.mem_cons.1 h with rfl | h
      · exact List.not_mem_nil
      · exact ih h
    · rename_i hc
      split at h
      · rename_i hnil
        exact absurd hnil (splitSlash_ne_nil t)
      · rename_i first more hcons
        rw [hcons] at ih
        rcases List.mem_cons.1 h with rfl | h
        · rw [List.mem_cons, not_or]
          exact ⟨Ne.symm hc, ih List.mem_cons_self⟩
        · exact ih (List.mem_cons_of_mem _ h)

/-- A character other than the slash is in a text if it is in one of the
parts. -/
theorem mem_iff_mem_splitSlash {c : Char} (hc : c ≠ '/') (t : Text) :
    c ∈ t ↔ ∃ part ∈ splitSlash t, c ∈ part := by
  induction t with
  | nil => simp [splitSlash]
  | cons a t ih =>
    unfold splitSlash
    split
    · rename_i ha
      subst ha
      simp [hc, ih]
    · cases hsplit : splitSlash t with
      | nil => exact absurd hsplit (splitSlash_ne_nil t)
      | cons part more =>
        rw [hsplit] at ih
        simp [ih, or_assoc]

namespace Path

-- ================================================================ parts

theorem parts_ne_nil (path : String) : parts path ≠ [] := by
  unfold parts
  rw [Ne, List.map_eq_nil_iff]
  exact splitSlash_ne_nil _

theorem not_mem_of_mem_parts {path part : String} (h : part ∈ parts path) :
    '/' ∉ part.toList := by
  obtain ⟨t, ht, rfl⟩ := List.mem_map.1 h
  rw [String.toList_ofList]
  exact not_mem_of_mem_splitSlash ht

theorem parts_slash_append (path : String) :
    parts ("/" ++ path) = "" :: parts path := by
  unfold parts
  rw [String.toList_append]
  rfl

theorem parts_here_append (path : String) :
    parts ("./" ++ path) = "." :: parts path := by
  unfold parts
  rw [String.toList_append]
  rfl

/-- Parts joined with slashes are cut at them again. -/
theorem parts_intercalate {body : List String} (hne : body ≠ [])
    (h : ∀ part ∈ body, '/' ∉ part.toList) :
    parts (String.intercalate "/" body) = body := by
  have hsplit : splitSlash (List.intercalate ['/'] (body.map String.toList))
      = body.map String.toList := by
    rw [splitSlash_eq_splitOn]
    exact List.splitOn_intercalate '/' (List.forall_mem_map.2 h)
      (mt List.map_eq_nil_iff.1 hne)
  unfold parts
  rw [String.toList_intercalate]
  show (splitSlash (List.intercalate ['/'] _)).map _ = _
  rw [hsplit, List.map_map]
  exact (List.map_congr_left fun s _ => String.ofList_toList).trans
    (List.map_id _)

/-- A path starts at the root if its first part is empty and not the only
one. -/
theorem isAbsolute_iff (path : String) :
    isAbsolute path = true
      ↔ ∃ second rest, parts path = "" :: second :: rest := by
  unfold isAbsolute parts
  cases path.toList with
  | nil => simp [splitSlash]
  | cons c t =>
    obtain ⟨part, more, ht⟩ := List.exists_cons_of_ne_nil (splitSlash_ne_nil t)
    unfold splitSlash
    rw [ht]
    by_cases hc : c = '/'
    · subst hc
      simp
    · simp [hc]

-- ===================================================== what names things

/-- The parts that name something. -/
def named (parts : List String) : List String := parts.filter (!isVoid ·)

theorem named_append (a b : List String) :
    named (a ++ b) = named a ++ named b :=
  List.filter_append a b

theorem named_cons_of_isVoid {part : String} (h : isVoid part = true)
    (rest : List String) : named (part :: rest) = named rest := by
  unfold named
  rw [List.filter_cons_of_neg]
  rw [h]
  exact Bool.false_ne_true

theorem named_cons_of_solid {part : String} (h : isVoid part = false)
    (rest : List String) : named (part :: rest) = part :: named rest := by
  unfold named
  rw [List.filter_cons_of_pos]
  rw [h]
  rfl

/-- Void parts at the end name nothing. -/
theorem named_rdropWhile (body : List String) :
    named (body.rdropWhile isVoid) = named body := by
  induction body using List.reverseRecOn with
  | nil => rfl
  | append_singleton body part ih =>
    rw [List.rdropWhile_concat]
    split
    · rename_i hvoid
      rw [ih, named_append, named_cons_of_isVoid hvoid]
      exact (List.append_nil _).symm
    · rfl

theorem named_parts_intercalate {body : List String}
    (h : ∀ part ∈ body, '/' ∉ part.toList) :
    named (parts (String.intercalate "/" body)) = named body := by
  cases body with
  | nil => rfl
  | cons part rest => rw [parts_intercalate (List.cons_ne_nil part rest) h]

/-- A character other than slash and dot is in a path if it is in a part
that names something. -/
theorem mem_iff_mem_named {c : Char} (hslash : c ≠ '/') (hdot : c ≠ '.')
    (path : String) :
    c ∈ path.toList ↔ ∃ part ∈ named (parts path), c ∈ part.toList := by
  have hparts : c ∈ path.toList ↔ ∃ part ∈ parts path, c ∈ part.toList := by
    rw [mem_iff_mem_splitSlash hslash]
    unfold parts
    simp
  rw [hparts]
  constructor
  · rintro ⟨part, hpart, hmem⟩
    refine ⟨part, List.mem_filter.2 ⟨hpart, ?_⟩, hmem⟩
    by_contra hvoid
    simp only [isVoid, Bool.not_eq_true', Bool.not_eq_false,
      Bool.or_eq_true, beq_iff_eq] at hvoid
    rcases hvoid with rfl | rfl
    · exact absurd hmem List.not_mem_nil
    · exact hdot (List.mem_singleton.1 hmem)
  · rintro ⟨part, hpart, hmem⟩
    exact ⟨part, (List.mem_filter.1 hpart).1, hmem⟩

-- ============================================================== writing

theorem named_parts_write (start : Start) {body : List String}
    (h : ∀ part ∈ body, '/' ∉ part.toList) :
    named (parts (write start body)) = named body := by
  unfold write
  split
  · rw [parts_slash_append, named_cons_of_isVoid (by decide),
      named_parts_intercalate h]
  · decide
  · rw [parts_here_append, named_cons_of_isVoid (by decide),
      named_parts_intercalate h]
  · exact named_parts_intercalate h

/-- What is written starts at the root if it is meant to; a relative path
may not begin with an empty part. -/
theorem isAbsolute_write (start : Start) {body : List String}
    (h : ∀ part ∈ body, '/' ∉ part.toList)
    (hfirst : start = .relative → body.head? ≠ some "") :
    isAbsolute (write start body) = decide (start = .root) := by
  unfold write
  split
  · unfold isAbsolute
    rw [String.toList_append]
    rfl
  · decide
  · unfold isAbsolute
    rw [String.toList_append]
    rfl
  · cases body with
    | nil => decide
    | cons part rest =>
      show isAbsolute _ = false
      rw [Bool.eq_false_iff, Ne, isAbsolute_iff,
        parts_intercalate (List.cons_ne_nil part rest) h]
      rintro ⟨second, more, hparts⟩
      exact hfirst rfl (congrArg List.head? hparts)

-- ======================================================== the path above

/-- How a path with a last part that names something starts and goes on. -/
structure Splits (path : String) (init : List String) (name : String)
    (start : Start) (body : List String) : Prop where
  split : split path = (start, body ++ [name])
  named : named body = named init
  noSlash : ∀ part ∈ body, '/' ∉ part.toList
  absolute : isAbsolute path = decide (start = .root)
  first : start = .relative → body.head? ≠ some ""

/-- How a path starts and goes on, by its parts. -/
theorem split_cases (path : String) :
    (∃ second rest, parts path = "" :: second :: rest
        ∧ split path = (.root, second :: rest))
      ∨ (∃ rest, parts path = "." :: rest ∧ split path = (.here, rest))
      ∨ isAbsolute path = false ∧ split path = (.relative, parts path) := by
  unfold split
  split
  · rename_i second rest hparts
    exact Or.inl ⟨second, rest, hparts, rfl⟩
  · rename_i rest hparts
    exact Or.inr (Or.inl ⟨rest, hparts, rfl⟩)
  · rename_i hroot _
    refine Or.inr (Or.inr ⟨?_, rfl⟩)
    rw [Bool.eq_false_iff, Ne, isAbsolute_iff]
    rintro ⟨second, rest, hparts⟩
    exact hroot second rest hparts

theorem exists_splits {path name : String} {init : List String}
    (h : parts path = init ++ [name]) (hname : isVoid name = false) :
    ∃ start body, Splits path init name start body := by
  have hslash : ∀ part ∈ init, '/' ∉ part.toList := fun part hpart =>
    not_mem_of_mem_parts (h ▸ List.mem_append_left [name] hpart)
  have habsolute := isAbsolute_iff path
  rcases split_cases path with
    ⟨second, rest, hparts, hsplit⟩ | ⟨rest, hparts, hsplit⟩
      | ⟨hrelative, hsplit⟩
  · rw [h] at hparts habsolute
    cases init with
    | nil => cases hparts
    | cons first body =>
      obtain ⟨rfl, hrest⟩ := List.cons.inj hparts
      rw [← hrest] at hsplit
      exact ⟨.root, body, hsplit, (named_cons_of_isVoid rfl body).symm,
        fun part hpart => hslash part (List.mem_cons_of_mem _ hpart),
        habsolute.2 ⟨second, rest, hparts⟩, fun hstart => by cases hstart⟩
  · rw [h] at hparts
    cases init with
    | nil =>
      obtain ⟨rfl, -⟩ := List.cons.inj hparts
      exact absurd hname (by decide)
    | cons first body =>
      obtain ⟨rfl, hrest⟩ := List.cons.inj hparts
      rw [← hrest] at hsplit
      have hrelative : isAbsolute path = false := by
        rw [Bool.eq_false_iff, Ne, habsolute, h]
        rintro ⟨second, rest', hparts'⟩
        exact absurd (List.cons.inj hparts').1 (by decide)
      exact ⟨.here, body, hsplit, (named_cons_of_isVoid rfl body).symm,
        fun part hpart => hslash part (List.mem_cons_of_mem _ hpart),
        hrelative, fun hstart => by cases hstart⟩
  · rw [h] at hsplit
    refine ⟨.relative, init, hsplit, rfl, hslash, hrelative, fun _ hhead => ?_⟩
    rw [Bool.eq_false_iff, Ne, habsolute, h] at hrelative
    obtain ⟨rest, rfl⟩ := List.head?_eq_some_iff.1 hhead
    obtain ⟨second, more, hmore⟩ :=
      List.exists_cons_of_ne_nil (List.append_ne_nil_of_right_ne_nil rest
        (List.cons_ne_nil name []))
    exact hrelative ⟨second, more, congrArg ("" :: ·) hmore⟩

/-- The path above one whose last part names something is all before that
part. -/
theorem parent?_of_split {path name : String} {start : Start}
    {body : List String} (h : split path = (start, body ++ [name]))
    (hname : isVoid name = false) :
    parent? path = some (write start (body.rdropWhile isVoid)) := by
  have hbodies : bodiesAbove (body ++ [name]).reverse
      = body.reverse.dropWhile isVoid :: bodiesAbove body.reverse := by
    rw [List.reverse_append]
    show (if isVoid name = true then _ else _) = _
    rw [hname]
    rfl
  unfold parent? above
  rw [h]
  dsimp only
  rw [hbodies]
  cases start <;> rfl

/-- A directory that is not written is the working directory. -/
theorem named_parts_getD (dir : String) :
    isAbsolute (if dir == "" then "." else dir) = isAbsolute dir
      ∧ named (parts (if dir == "" then "." else dir))
        = named (parts dir) := by
  by_cases h : dir = ""
  · subst h
    decide
  · rw [beq_false_of_ne h]
    exact ⟨rfl, rfl⟩

/-- The directory of a file starts where the path of the file does and is
named by the parts in front of the last. -/
theorem named_directoryOf {path name : String} {init : List String}
    (h : parts path = init ++ [name]) (hname : isVoid name = false) :
    isAbsolute (Disk.directoryOf path) = isAbsolute path
      ∧ named (parts (Disk.directoryOf path)) = named init := by
  obtain ⟨start, body, hsplits⟩ := exists_splits h hname
  have htrimmed := List.rdropWhile_prefix isVoid body
  have hslash : ∀ part ∈ body.rdropWhile isVoid, '/' ∉ part.toList :=
    fun part hpart => hsplits.noSlash part (htrimmed.subset hpart)
  have hfirst : start = .relative →
      (body.rdropWhile isVoid).head? ≠ some "" := by
    intro hstart hhead
    refine hsplits.first hstart ?_
    obtain ⟨rest, hrest⟩ := htrimmed
    rw [← hrest, List.head?_append, hhead]
    rfl
  obtain ⟨hstart, hparts⟩ := named_parts_getD
    (write start (body.rdropWhile isVoid))
  unfold Disk.directoryOf
  rw [parent?_of_split hsplits.split hname]
  constructor
  · rw [hsplits.absolute, ← isAbsolute_write start hslash hfirst]
    exact hstart
  · rw [← hsplits.named, ← named_rdropWhile body,
      ← named_parts_write start hslash]
    exact hparts

end Path

end ComponentMarkdown.Files
