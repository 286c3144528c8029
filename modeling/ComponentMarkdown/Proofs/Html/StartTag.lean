/-
How HTML reads a start tag, as far as its name and its attributes go. Behind
the name, spaces and slashes part the attributes. A name goes on to a space,
a slash, an equals sign or the end of the tag, whatever else it holds, and
capitals in it count as small letters. Behind an equals sign, with spaces on
either side of it, stands a value: between quotes, or without quotes up to a
space or the end. The tag ends with the first `>` outside of quotes.

The reader takes one character at a time (`State.step`). It lists every
attribute that is written, also those whose name occurs again.

`State.Reads` says what is read of a text, wherever it stands and whatever
follows. The names, values and spaces that attributes are made of are read
one by one, and their readings put together (`State.Reads.append`).
-/
import ComponentMarkdown.Proofs.Text.Blank

namespace ComponentMarkdown.Html

-- ============================================================ the reader

/-- The characters that part the attributes of a tag. -/
def isSpace (c : Char) : Bool := ['\t', '\n', '\x0c', '\r', ' '].contains c

/-- An attribute: its name in small letters, and its value, which is empty
if it has none. -/
structure Attribute where
  name : Text
  value : Text
  deriving DecidableEq, Repr

/-- A start tag. -/
structure StartTag where
  name : Text
  attributes : List Attribute
  deriving DecidableEq, Repr

/-- Where the reader of attributes stands, and what it has read of the
attribute it is in. -/
inductive State where
  /-- In front of an attribute, or of the end. -/
  | between
  | inName (name : Text)
  /-- Behind a name and spaces. -/
  | behindName (name : Text)
  /-- Behind an equals sign. -/
  | beforeValue (name : Text)
  | quoted (quote : Char) (name value : Text)
  | unquoted (name value : Text)

namespace State

/-- What one character does: the attribute that it ends, if there is one,
and where the reader stands behind it. -/
def step : State → Char → List Attribute × State
  | .between, c =>
    if isSpace c || c == '/' then ([], .between)
    else ([], .inName [c.toLower])
  | .inName n, c =>
    if isSpace c then ([], .behindName n)
    else if c = '/' then ([⟨n, []⟩], .between)
    else if c = '=' then ([], .beforeValue n)
    else ([], .inName (n ++ [c.toLower]))
  | .behindName n, c =>
    if isSpace c then ([], .behindName n)
    else if c = '/' then ([⟨n, []⟩], .between)
    else if c = '=' then ([], .beforeValue n)
    else ([⟨n, []⟩], .inName [c.toLower])
  | .beforeValue n, c =>
    if isSpace c then ([], .beforeValue n)
    else if c = '"' ∨ c = '\'' then ([], .quoted c n [])
    else ([], .unquoted n [c])
  | .quoted q n v, c =>
    if c = q then ([⟨n, v⟩], .between) else ([], .quoted q n (v ++ [c]))
  | .unquoted n v, c =>
    if isSpace c then ([⟨n, v⟩], .between) else ([], .unquoted n (v ++ [c]))

/-- Whether `>` ends the tag. -/
def atEnd : State → Bool
  | .quoted _ _ _ => false
  | _ => true

/-- The attribute that the end of the tag ends, if there is one. -/
def ended : State → List Attribute
  | .between => []
  | .inName n => [⟨n, []⟩]
  | .behindName n => [⟨n, []⟩]
  | .beforeValue n => [⟨n, []⟩]
  | .quoted _ n v => [⟨n, v⟩]
  | .unquoted n v => [⟨n, v⟩]

/-- The attributes up to the end of the tag, if it has one. -/
def attributes? : State → Text → Option (List Attribute)
  | _, [] => none
  | st, c :: s =>
    if st.atEnd && c == '>' then some st.ended
    else (attributes? (st.step c).2 s).map ((st.step c).1 ++ ·)

end State

/-- Whether a character goes on with the name of a tag. -/
def inTagName (c : Char) : Bool := !(isSpace c || c == '/' || c == '>')

/-- Whether a character stands in the name of an attribute, wherever it
stands there. -/
def inAttributeName (c : Char) : Bool :=
  !(isSpace c || ['/', '=', '>'].contains c)

theorem of_inAttributeName {c : Char} (hc : inAttributeName c = true) :
    isSpace c = false ∧ c ≠ '/' ∧ c ≠ '=' ∧ c ≠ '>' := by
  unfold inAttributeName at hc
  simpa using hc

/-- The start tag at the head of a text. -/
def startTag? : Text → Option StartTag
  | '<' :: c :: s =>
    if c.isAlpha then
      (State.between.attributes? ((c :: s).dropWhile inTagName)).map
        (⟨Text.asciiLower ((c :: s).takeWhile inTagName), ·⟩)
    else none
  | _ => none

-- ======================================================= what is read

namespace State

/-- Whether the reader that stands at the one place gets through the text to
the other, and reads these attributes. -/
def Reads (st : State) (t : Text) (attributes : List Attribute)
    (st' : State) : Prop :=
  ∀ s, attributes? st (t ++ s) = (attributes? st' s).map (attributes ++ ·)

variable {st st' st'' : State} {a b : Text} {l m : List Attribute}

theorem reads_nil (st : State) : st.Reads [] [] st := fun s => by
  simp

/-- Reading goes on behind what has been read. -/
theorem Reads.append (ha : st.Reads a l st') (hb : st'.Reads b m st'') :
    st.Reads (a ++ b) (l ++ m) st'' := fun s => by
  rw [List.append_assoc, ha, hb, Option.map_map]
  exact congrArg (Option.map · _) (funext fun more =>
    (List.append_assoc l m more).symm)

/-- A closing bracket ends the attributes. -/
theorem attributes?_end (hst : st.atEnd = true) (s : Text) :
    attributes? st ('>' :: s) = some st.ended := by
  rw [attributes?, hst]
  rfl

/-- A character is read in the state before it. -/
theorem attributes?_step {c : Char} (hc : st.atEnd = true → c ≠ '>')
    (hstep : st.step c = (l, st')) (s : Text) :
    attributes? st (c :: s) = (attributes? st' s).map (l ++ ·) := by
  have hnot : (st.atEnd && c == '>') = false := by
    cases hend : st.atEnd with
    | false => rfl
    | true => simpa using hc hend
  rw [attributes?, hnot, if_neg Bool.false_ne_true, hstep]

theorem attributes?_silent {c : Char} (hc : st.atEnd = true → c ≠ '>')
    (hstep : st.step c = ([], st')) (s : Text) :
    attributes? st (c :: s) = attributes? st' s := by
  rw [attributes?_step hc hstep]
  exact Option.map_id_apply

/-- One character that does not end the tag is read, and then the rest. -/
theorem Reads.cons {c : Char} (hc : st.atEnd = true → c ≠ '>')
    (hstep : st.step c = (l, st')) (h : st'.Reads a m st'') :
    st.Reads (c :: a) (l ++ m) st'' := fun s => by
  rw [List.cons_append, attributes?_step hc hstep, h, Option.map_map]
  exact congrArg (Option.map · _) (funext fun more =>
    (List.append_assoc l m more).symm)

theorem ne_of_isSpace {c : Char} (hc : isSpace c = true) : c ≠ '>' := by
  rintro rfl
  cases hc

/-- Spaces that change nothing are read over. -/
theorem reads_spaces (hst : ∀ c, isSpace c = true → st.step c = ([], st))
    {t : Text} (ht : ∀ c ∈ t, isSpace c = true) : st.Reads t [] st := by
  induction t with
  | nil => exact reads_nil st
  | cons c t ih =>
    obtain ⟨hc, ht⟩ := List.forall_mem_cons.1 ht
    exact (ih ht).cons (fun _ => ne_of_isSpace hc) (hst c hc)

theorem step_between_of_isSpace (c : Char) (hc : isSpace c = true) :
    between.step c = ([], between) := by
  rw [step, hc, Bool.true_or, if_pos rfl]

theorem step_behindName_of_isSpace (n : Text) (c : Char)
    (hc : isSpace c = true) : (behindName n).step c = ([], behindName n) := by
  rw [step, if_pos hc]

theorem step_beforeValue_of_isSpace (n : Text) (c : Char)
    (hc : isSpace c = true) :
    (beforeValue n).step c = ([], beforeValue n) := by
  rw [step, if_pos hc]

-- ======================================================= names and values

/-- A name goes on. -/
theorem reads_name (n : Text) {t : Text}
    (ht : ∀ c ∈ t, inAttributeName c = true) :
    (inName n).Reads t [] (inName (n ++ t.asciiLower)) := by
  induction t generalizing n with
  | nil =>
    have hsame : n ++ Text.asciiLower [] = n := List.append_nil n
    rw [hsame]
    exact reads_nil _
  | cons c t ih =>
    obtain ⟨hc, ht⟩ := List.forall_mem_cons.1 ht
    obtain ⟨hspace, hslash, hequals, hend⟩ := of_inAttributeName hc
    have hstep : (inName n).step c = ([], inName (n ++ [c.toLower])) := by
      rw [step, hspace, if_neg Bool.false_ne_true, if_neg hslash,
        if_neg hequals]
    have hrest := ih (n ++ [c.toLower]) ht
    rw [List.append_assoc] at hrest
    exact hrest.cons (fun _ => hend) hstep

/-- A name starts with any character that may stand in one. -/
theorem reads_name_between {t : Text} (hne : t ≠ [])
    (ht : ∀ c ∈ t, inAttributeName c = true) :
    between.Reads t [] (inName t.asciiLower) := by
  obtain ⟨c, t, rfl⟩ := List.exists_cons_of_ne_nil hne
  obtain ⟨hc, ht⟩ := List.forall_mem_cons.1 ht
  obtain ⟨hspace, hslash, -, hend⟩ := of_inAttributeName hc
  have hstep : between.step c = ([], inName [c.toLower]) := by
    rw [step, hspace, Bool.false_or, if_neg (by simpa using hslash)]
  exact (reads_name [c.toLower] ht).cons (fun _ => hend) hstep

/-- A quoted value goes on to its quote. -/
theorem reads_quoted {q : Char} (n v : Text) {t : Text} (ht : q ∉ t) :
    (quoted q n v).Reads (t ++ [q]) [⟨n, v ++ t⟩] between := by
  have hopen (v : Text) (c : Char) (h : (quoted q n v).atEnd = true) :
      c ≠ '>' := nomatch h
  induction t generalizing v with
  | nil =>
    have hstep : (quoted q n v).step q = ([⟨n, v⟩], between) := if_pos rfl
    rw [List.append_nil]
    exact (reads_nil between).cons (hopen v _) hstep
  | cons c t ih =>
    rw [List.mem_cons, not_or] at ht
    have hstep : (quoted q n v).step c = ([], quoted q n (v ++ [c])) :=
      if_neg (Ne.symm ht.1)
    have hrest := ih (v ++ [c]) ht.2
    rw [List.append_assoc] at hrest
    exact hrest.cons (hopen v _) hstep

/-- And one without quotes to a space or to the end. -/
theorem reads_unquoted (n v : Text) {t : Text}
    (ht : ∀ c ∈ t, isSpace c = false ∧ c ≠ '>') :
    (unquoted n v).Reads t [] (unquoted n (v ++ t)) := by
  induction t generalizing v with
  | nil =>
    rw [List.append_nil]
    exact reads_nil _
  | cons c t ih =>
    obtain ⟨⟨hspace, hend⟩, ht⟩ := List.forall_mem_cons.1 ht
    have hstep : (unquoted n v).step c = ([], unquoted n (v ++ [c])) := by
      rw [step, hspace, if_neg Bool.false_ne_true]
    have hrest := ih (v ++ [c]) ht
    rw [List.append_assoc] at hrest
    exact hrest.cons (fun _ => hend) hstep

-- ============================================================ boundaries

/-- Whether an attribute without a value may stand in front of a text: it is
empty, or starts with a space or the end of the tag, and no equals sign
stands behind the spaces. -/
structure Rests (s : Text) : Prop where
  head : ∀ c ∈ s.head?, isSpace c = true ∨ c = '>'
  value : ∀ c ∈ (s.dropWhile isSpace).head?, c ≠ '='

theorem attributes?_behindName (n : Text) {s : Text}
    (hs : ∀ c ∈ (s.dropWhile isSpace).head?, c ≠ '=') :
    attributes? (behindName n) s
      = (attributes? between s).map (⟨n, []⟩ :: ·) := by
  induction s with
  | nil => rfl
  | cons c s ih =>
    by_cases hspace : isSpace c = true
    · have hend := ne_of_isSpace hspace
      rw [List.dropWhile_cons_of_pos hspace] at hs
      rw [attributes?_silent (fun _ => hend)
          (step_behindName_of_isSpace n c hspace),
        attributes?_silent (fun _ => hend) (step_between_of_isSpace c hspace),
        ih hs]
    · rw [List.dropWhile_cons_of_neg hspace] at hs
      have hequals : c ≠ '=' := hs c rfl
      rw [Bool.not_eq_true] at hspace
      by_cases hend : c = '>'
      · rw [hend, attributes?_end rfl, attributes?_end rfl]
        rfl
      · -- both go on from the same place, the one with the name behind it
        have hboth : ∃ st, (behindName n).step c = ([⟨n, []⟩], st)
            ∧ between.step c = ([], st) := by
          rw [step, step, hspace, Bool.false_or]
          by_cases hslash : c = '/'
          · exact ⟨between, by simp [hslash], by simp [hslash]⟩
          · exact ⟨inName [c.toLower], by simp [hslash, hequals],
              by simp [hslash]⟩
        obtain ⟨st, hname, hnew⟩ := hboth
        rw [attributes?_step (fun _ => hend) hname,
          attributes?_silent (fun _ => hend) hnew]
        rfl

/-- In front of such a text a name stands for itself. -/
theorem attributes?_inName (n : Text) {s : Text} (hs : Rests s) :
    attributes? (inName n) s
      = (attributes? between s).map (⟨n, []⟩ :: ·) := by
  cases s with
  | nil => rfl
  | cons c s =>
    rcases hs.head c rfl with hspace | rfl
    · have hend := ne_of_isSpace hspace
      have hvalue := hs.value
      rw [List.dropWhile_cons_of_pos hspace] at hvalue
      have hname : (inName n).step c = ([], behindName n) := by
        rw [step, if_pos hspace]
      rw [attributes?_silent (fun _ => hend) hname,
        attributes?_silent (fun _ => hend) (step_between_of_isSpace c hspace),
        attributes?_behindName n hvalue]
    · rw [attributes?_end rfl, attributes?_end rfl]
      rfl

/-- And a value without quotes ends there. -/
theorem attributes?_unquoted (n v : Text) {s : Text} (hs : Rests s) :
    attributes? (unquoted n v) s
      = (attributes? between s).map (⟨n, v⟩ :: ·) := by
  cases s with
  | nil => rfl
  | cons c s =>
    rcases hs.head c rfl with hspace | rfl
    · have hend := ne_of_isSpace hspace
      have hvalue : (unquoted n v).step c = ([⟨n, v⟩], between) := by
        rw [step, if_pos hspace]
      rw [attributes?_step (fun _ => hend) hvalue,
        attributes?_silent (fun _ => hend) (step_between_of_isSpace c hspace)]
      rfl
    · rw [attributes?_end rfl, attributes?_end rfl]
      rfl

end State

end ComponentMarkdown.Html
