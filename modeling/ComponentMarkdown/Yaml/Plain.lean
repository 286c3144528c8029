/-
Plain scalars: words without quotes. They end where an indicator does, or a
comment, a document mark, or a line indented too little; gaps between their
words fold.
-/
import ComponentMarkdown.Yaml.Character

namespace ComponentMarkdown.Yaml

/-- A character that a flow collection uses for itself. -/
def isFlowIndicator (c : Char) : Bool :=
  c == ',' || c == '[' || c == ']' || c == '{' || c == '}'

/-- Whether a colon in a flow collection stands where it must not: before
an indicator, with no blank between. -/
def isStrayColon (c : Char) (rest : Text) : Bool :=
  c == ':' &&
    match rest with
    | [] => false
    | d :: _ => isFlowIndicator d || d == '?'

/-- One word of a plain scalar and what follows it. -/
def plainWord (flow : Bool) : Text → Option (Text × Text)
  | [] => some ([], [])
  | c :: rest =>
    if isGap c then some ([], c :: rest)
    else if flow && isStrayColon c rest then none
    else if (c = ':' && atGap rest) || (flow && isFlowIndicator c) then
      some ([], c :: rest)
    else (plainWord flow rest).map fun r => (c :: r.1, r.2)

theorem plainWord_length {flow : Bool} {s word rest : Text}
    (h : plainWord flow s = some (word, rest)) : rest.length ≤ s.length := by
  induction s generalizing word rest with
  | nil =>
    cases h
    exact Nat.le_refl _
  | cons c s ih =>
    simp only [plainWord] at h
    split at h
    · cases h
      exact Nat.le_refl _
    · split at h
      · cases h
      · split at h
        · cases h
          exact Nat.le_refl _
        · obtain ⟨⟨w, r⟩, hr, he⟩ := Option.map_eq_some_iff.1 h
          cases he
          exact Nat.le_succ_of_le (ih hr)

/-- Whether a gap indents a line by a tab, in front of the given column. -/
def hasTabIndent (indent : Nat) : Option Nat → Text → Bool
  | _, [] => false
  | column, c :: rest =>
    if isBreak c then hasTabIndent indent (some 0) rest
    else
      match column with
      | none => hasTabIndent indent none rest
      | some k =>
        (c == '\t' && k < indent) || hasTabIndent indent (some (k + 1)) rest

/-- The rest of a plain scalar behind one of its words: its text, whether
the gap behind it holds a break, and what follows that gap. -/
def plainTail (flow : Bool) (indent : Nat) (s : Text) :
    Option (Text × Bool × Text) :=
  match _hs : s.takeWhile isGap with
  | [] => some ([], false, s)
  | g :: more =>
    let gap := g :: more
    let after := s.dropWhile isGap
    let broken := gap.any isBreak
    if hasTabIndent indent none gap then none
    else if (broken && !flow && columnAfter gap < indent)
        || (endsLine gap && isDocumentMark after)
        || after.head? == some '#' then
      some ([], broken, after)
    else
      match _hw : plainWord flow after with
      | none => none
      | some ([], _) => some ([], broken, after)
      | some (word, rest) =>
        (plainTail flow indent rest).map fun r =>
          (foldGap gap ++ word ++ r.1, r.2)
termination_by s.length
decreasing_by
  have h₁ : rest.length ≤ (s.dropWhile isGap).length := plainWord_length _hw
  have h₂ : (s.takeWhile isGap ++ s.dropWhile isGap).length = s.length :=
    congrArg List.length List.takeWhile_append_dropWhile
  rw [List.length_append, _hs] at h₂
  simp only [List.length_cons] at h₂
  omega

/-- A plain scalar: its text, whether a line break was read behind it, and
what follows. -/
def plain? (flow : Bool) (indent : Nat) (s : Text) :
    Option (Text × Bool × Text) :=
  (plainWord flow s).bind fun first =>
    (plainTail flow indent first.2).map fun r => (first.1 ++ r.1, r.2)

end ComponentMarkdown.Yaml
