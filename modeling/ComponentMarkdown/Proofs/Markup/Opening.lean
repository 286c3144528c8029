/-
The opening tags of a text, and edits of them. An edit of opening tags
leaves a text alone exactly if it leaves every one of them alone
(`count_editOpeningTags_eq_zero_iff`).

What a part of a tag does to the machine that reads it is said by the mode
that it leads to, whatever follows (`TagMode.Leads`): blanks, quoted values
and values in braces all lead from attributes to attributes again.

The machine does not tell a capital from its small
letter, so texts that differ in case only have their tags at the same
places (`openingTag?_of_case`).
-/
import ComponentMarkdown.Markup.Opening
import ComponentMarkdown.Proofs.Markup.Quoted
import ComponentMarkdown.Proofs.Splice.Pieces
import ComponentMarkdown.Proofs.Splice.Tags
import ComponentMarkdown.Proofs.Text.Blank
import ComponentMarkdown.Proofs.Text.Case

namespace ComponentMarkdown.Markup

open Text

-- ======================================================= reading tags

theorem scan_openingTags_of_some {s tag : Text}
    (h : openingTag? s = some tag) : openingTags.scan s = some ⟨tag, ()⟩ := by
  show (openingTag? s).map _ = _
  rw [h]
  rfl

theorem scan_openingTags_of_none {s : Text} (h : openingTag? s = none) :
    openingTags.scan s = none := by
  show (openingTag? s).map _ = _
  rw [h]
  rfl

/-- A text is gone through by taking a tag or passing over a character. -/
theorem openingTag_induction {motive : Text → Prop} (s : Text)
    (nil : motive [])
    (tag : ∀ s t, openingTag? s = some t → motive (s.drop t.length)
      → motive s)
    (char : ∀ c rest, openingTag? (c :: rest) = none → motive rest
      → motive (c :: rest)) : motive s := by
  refine openingTags.induction_on s nil ?_ ?_
  · intro s h hs ih
    obtain ⟨t, ht, rfl⟩ := Option.map_eq_some_iff.1 hs
    exact tag s t ht ih
  · intro c rest hs ih
    exact char c rest (Option.map_eq_none_iff.1 hs) ih

/-- The opening tags of a text, in order. -/
def openingTagsOf (s : Text) : List Text :=
  (openingTags.hits s).map Hit.taken

theorem openingTagsOf_nil : openingTagsOf [] = [] := by
  unfold openingTagsOf
  rw [openingTags.hits_nil]
  rfl

/-- Where a tag stands, it is the first. -/
theorem openingTagsOf_of_tag {s tag : Text} (h : openingTag? s = some tag) :
    openingTagsOf s = tag :: openingTagsOf (s.drop tag.length) := by
  unfold openingTagsOf
  rw [openingTags.hits_of_hit (scan_openingTags_of_some h)]
  rfl

/-- Where none stands, the next character is looked at. -/
theorem openingTagsOf_of_char {c : Char} {rest : Text}
    (h : openingTag? (c :: rest) = none) :
    openingTagsOf (c :: rest) = openingTagsOf rest := by
  unfold openingTagsOf
  rw [openingTags.hits_of_none (scan_openingTags_of_none h)]

-- =============================================================== edits

/-- An edit of tags counts nothing exactly if it counts nothing in any tag. -/
theorem count_editOpeningTags_eq_zero_iff {edit : Text → Edited}
    {s : Text} :
    (editOpeningTags edit s).count = 0
      ↔ ∀ tag ∈ openingTagsOf s, (edit tag).count = 0 := by
  unfold editOpeningTags openingTagsOf
  rw [Scanner.count_splice_eq_zero_iff, List.forall_mem_map]

/-- What stands for a piece once the opening tags of a text are edited. -/
def editedPiece (edit : Text → Edited) : Piece Unit → Text
  | .char c => [c]
  | .hit h => (edit h.taken).text

/-- Characters stay as they are. -/
theorem editedPiece_chars (edit : Text → Edited) (t : Text) :
    (t.map Piece.char).flatMap (editedPiece edit) = t := by
  rw [List.flatMap_map]
  exact List.flatMap_singleton' t

/-- The tags of a text are edited one by one. -/
theorem text_editOpeningTags {edit : Text → Edited}
    (hsame : ∀ tag, (edit tag).count = 0 → (edit tag).text = tag) (s : Text) :
    (editOpeningTags edit s).text
      = (openingTags.pieces s).flatMap (editedPiece edit) := by
  unfold editOpeningTags
  rw [Scanner.text_splice]
  refine congrArg ((openingTags.pieces s).flatMap ·) (funext fun p => ?_)
  cases p with
  | char c => rfl
  | hit h =>
    rw [Scanner.splicedPiece, Scanner.spliced, editedPiece]
    split
    · rename_i hcount
      exact (hsame _ hcount).symm
    · rfl

-- ================================================ from mode to mode

namespace TagMode

variable {mode mid next : TagMode} {a b : Text} {c : Char}

/-- Whether a text leads the reader from one mode to another, whatever
follows it. -/
def Leads (mode next : TagMode) (a : Text) : Prop :=
  ∀ s, takeTag mode (a ++ s) = (takeTag next s).map (a ++ ·)

theorem leads_nil : Leads mode mode [] :=
  fun _ => Option.map_id_apply.symm

/-- The machine goes through two texts one behind the other. -/
theorem Leads.append (ha : Leads mode mid a) (hb : Leads mid next b) :
    Leads mode next (a ++ b) := by
  intro s
  rw [List.append_assoc, ha, hb, Option.map_map]
  refine congrArg (Option.map · _) (funext fun t => ?_)
  exact (List.append_assoc a b t).symm

/-- It goes through a character in one step. -/
theorem leads_of_step (h : mode.step c = .stay next) :
    Leads mode next [c] := by
  intro s
  rw [List.singleton_append, takeTag, h]
  rfl

/-- It goes through characters that leave its mode as it is. -/
theorem leads_of_stay (h : ∀ c ∈ a, mode.step c = .stay mode) :
    Leads mode mode a := by
  induction a with
  | nil => exact leads_nil
  | cons c a ih =>
    obtain ⟨hc, ha⟩ := List.forall_mem_cons.1 h
    exact (leads_of_step hc).append (ih ha)

/-- And it goes through texts that leave it so. -/
theorem leads_flatMap {α : Type} {write : α → Text}
    (h : ∀ x, Leads mode mode (write x)) (l : List α) :
    Leads mode mode (l.flatMap write) := by
  induction l with
  | nil => exact leads_nil
  | cons x l ih => exact (h x).append ih

/-- The characters that mean something among attributes. -/
def marks : List Char := ['>', '<', '}', '{', '"', '\'']

/-- Among the attributes, only a mark changes the mode. -/
theorem step_attributes_of_not_mem (h : c ∉ marks) :
    attributes.step c = .stay attributes := by
  unfold marks at h
  simp only [List.mem_cons, List.not_mem_nil, or_false, not_or] at h
  simp [step, h]

/-- A blank ends a name, and changes nothing behind it. -/
theorem step_of_isBlank (hc : isBlank c = true) :
    name.step c = .stay attributes
      ∧ attributes.step c = .stay attributes := by
  constructor
  · have hname : isTagNameChar c = false :=
      eq_false_of_isBlank (by decide +kernel) hc
    simp [step, hname, hc]
  · exact step_attributes_of_not_mem (not_mem_of_class (by decide) hc)

/-- A quoted value is passed over among attributes. -/
theorem leads_quoted {q : Char} (hq : isQuote q = true) {inner : Text}
    (hinner : q ∉ inner) :
    Leads attributes attributes (q :: (inner ++ [q])) := by
  have hopen : attributes.step q = .stay (quoted q) := by
    rcases isQuote_iff.1 hq with rfl | rfl <;> rfl
  have hstay : ∀ c ∈ inner, (quoted q).step c = .stay (quoted q) := by
    intro c hc
    have hne : c ≠ q := fun h => hinner (h ▸ hc)
    simp [step, hne]
  have hclose : (quoted q).step q = .stay attributes := by simp [step]
  exact (leads_of_step hopen).append
    ((leads_of_stay hstay).append (leads_of_step hclose))

/-- And so is a value in braces. -/
theorem leads_braces {inner : Text}
    (hinner : ∀ c ∈ inner, c ≠ '{' ∧ c ≠ '}') :
    Leads attributes attributes ('{' :: (inner ++ ['}'])) := by
  have hopen : attributes.step '{' = .stay braces := rfl
  have hstay : ∀ c ∈ inner, braces.step c = .stay braces := by
    intro c hc
    simp [step, hinner c hc]
  have hclose : braces.step '}' = .stay attributes := rfl
  exact (leads_of_step hopen).append
    ((leads_of_stay hstay).append (leads_of_step hclose))

end TagMode

-- ================================================= the case of letters

theorem isAlpha_of_quote {c : Char} (hc : c = '"' ∨ c = '\'') :
    c.isAlpha = false := by
  rcases hc with hc | hc <;> rw [hc] <;> decide

namespace TagMode

/-- A quoted value does not end with a letter. -/
def Plain : TagMode → Prop
  | .quoted q => q.isAlpha = false
  | _ => True

theorem isTagNameChar_toLower (c : Char) :
    isTagNameChar c.toLower = isTagNameChar c :=
  caseless (by decide) c

/-- A step is the same for a capital and its small letter. -/
theorem step_toLower {mode : TagMode} (hmode : mode.Plain) (c : Char) :
    mode.step c.toLower = mode.step c := by
  have hslash : c.toLower = '/' ↔ c = '/' := toLower_eq_iff (by decide)
  have hclose : c.toLower = '>' ↔ c = '>' := toLower_eq_iff (by decide)
  have hopen : c.toLower = '<' ↔ c = '<' := toLower_eq_iff (by decide)
  have hbrace : c.toLower = '{' ↔ c = '{' := toLower_eq_iff (by decide)
  have hend : c.toLower = '}' ↔ c = '}' := toLower_eq_iff (by decide)
  have hdouble : c.toLower = '"' ↔ c = '"' := toLower_eq_iff (by decide)
  have hsingle : c.toLower = '\'' ↔ c = '\'' := toLower_eq_iff (by decide)
  cases mode with
  | name =>
    simp only [step, isTagNameChar_toLower, isBlank_toLower, hslash, hclose]
  | slash => simp only [step, hclose]
  | attributes =>
    simp only [step, hclose, hopen, hbrace, hend, hdouble, hsingle]
    by_cases hquote : c = '"' ∨ c = '\''
    · rw [(toLower_eq_iff (isAlpha_of_quote hquote)).2 rfl]
    · rw [if_neg hquote, if_neg hquote]
  | quoted q => simp only [step, toLower_eq_iff hmode]
  | braces => simp only [step, hbrace, hend]
  | nested => simp only [step, hbrace, hend]

/-- The machine looks for no letter, whatever it reads. -/
theorem plain_of_step {mode next : TagMode} {c : Char}
    (hmode : mode.Plain) (h : mode.step c = .stay next) : next.Plain := by
  have hquote : c = '"' ∨ c = '\'' → c.isAlpha = false := isAlpha_of_quote
  cases mode with
  | name => grind [step, Plain]
  | slash => grind [step]
  | attributes => grind [step, Plain]
  | quoted q => grind [step, Plain]
  | braces => grind [step, Plain]
  | nested => grind [step, Plain]

/-- What the machine takes of a text, it takes of the one in small letters. -/
theorem takeTag_asciiLower {mode : TagMode} (hmode : mode.Plain)
    (s : Text) :
    takeTag mode (asciiLower s) = (takeTag mode s).map asciiLower := by
  induction s generalizing mode with
  | nil => rfl
  | cons c s ih =>
    show takeTag mode (c.toLower :: asciiLower s) = _
    rw [takeTag, takeTag, step_toLower hmode]
    cases hstep : mode.step c with
    | finish => rfl
    | fail => rfl
    | stay next =>
      show (takeTag next (asciiLower s)).map _ = _
      rw [ih (plain_of_step hmode hstep), Option.map_map]
      show _ = ((takeTag next s).map _).map _
      rw [Option.map_map]
      rfl

end TagMode

theorem openingTag?_of_ne {c : Char} (hc : c ≠ '<') (s : Text) :
    openingTag? (c :: s) = none := by
  unfold openingTag?
  split
  · rename_i heq
    cases heq
    exact absurd rfl hc
  · rfl

theorem seeksTags_openingTags : openingTags.SeeksTags :=
  fun _ hc s => scan_openingTags_of_none (openingTag?_of_ne hc s)

open TagMode in
/-- A tag through whose attributes the machine goes is taken through its
end. -/
theorem openingTag?_of_leads {first : Char} (hfirst : first.isAlpha = true)
    {rest : Text} (hrest : ∀ c ∈ rest, isTagNameChar c = true)
    {attributes : Text} (hlead : ∀ c ∈ attributes.head?, isBlank c = true)
    (hleads : Leads .attributes .attributes attributes) {ending : Text}
    (hending : ending ∈ [['/', '>'], ['>']]) (s : Text) :
    openingTag? ('<' :: first :: (rest ++ (attributes ++ ending)) ++ s)
      = some ('<' :: first :: (rest ++ (attributes ++ ending))) := by
  have hends : ∀ ending ∈ [['/', '>'], ['>']],
      takeTag .attributes ending = some ending
        ∧ takeTag .name ending = some ending := by decide +kernel
  obtain ⟨hend, hendName⟩ := hends ending hending
  -- the first blank ends the name, wherever it belongs
  have hbehind : takeTag .name (attributes ++ ending)
      = some (attributes ++ ending) := by
    cases attributes with
    | nil => exact hendName
    | cons c attributes =>
      obtain ⟨hblank, hstays⟩ := step_of_isBlank (hlead c rfl)
      have hall : takeTag .attributes (c :: attributes ++ ending)
          = some (c :: attributes ++ ending) := by
        rw [hleads, hend]
        rfl
      rw [List.cons_append, takeTag, hstays] at hall
      rw [List.cons_append, takeTag, hblank]
      exact hall
  have hletters : Leads .name .name rest :=
    leads_of_stay fun c hc => by simp [step, hrest c hc]
  have htake : takeTag .name (rest ++ (attributes ++ ending))
      = some (rest ++ (attributes ++ ending)) := by
    rw [hletters, hbehind]
    rfl
  rw [List.cons_append, List.cons_append, openingTag?, if_pos hfirst,
    takeTag_append s htake]
  rfl

open TagMode in
/-- So is a tag that is written in parts, if the machine goes through each of
them and the first one starts with a blank. -/
theorem openingTag?_of_parts {first : Char} (hfirst : first.isAlpha = true)
    {rest : Text} (hrest : ∀ c ∈ rest, isTagNameChar c = true)
    {α : Type} {write : α → Text} {parts : List α}
    (hleads : ∀ part, Leads .attributes .attributes (write part))
    (hlead : ∀ part ∈ parts.head?,
      ∃ c t, write part = c :: t ∧ isBlank c = true)
    (slash : Bool) (s : Text) :
    let written := '<' :: first :: (rest ++ (parts.flatMap write
      ++ if slash then ['/', '>'] else ['>']))
    openingTag? (written ++ s) = some written := by
  have hblank : ∀ c ∈ (parts.flatMap write).head?, isBlank c = true := by
    cases parts with
    | nil => exact nofun
    | cons part parts =>
      obtain ⟨c, t, hpart, hc⟩ := hlead part rfl
      rw [List.flatMap_cons, hpart]
      intro d hd
      cases hd
      exact hc
  have hending : (if slash then ['/', '>'] else ['>'])
      ∈ [['/', '>'], ['>']] := by
    cases slash <;> decide
  exact openingTag?_of_leads hfirst hrest hblank (leads_flatMap hleads parts)
    hending s

/-- So there is the same tag, in small letters. -/
theorem openingTag?_asciiLower (s : Text) :
    openingTag? (asciiLower s) = (openingTag? s).map asciiLower := by
  cases s with
  | nil => rfl
  | cons c s =>
    have hopen : c.toLower = '<' ↔ c = '<' := toLower_eq_iff (by decide)
    by_cases hc : c = '<'
    · cases s with
      | nil =>
        rw [hc]
        rfl
      | cons d s =>
        have htake := TagMode.takeTag_asciiLower
          (show TagMode.name.Plain from trivial) s
        rw [hc]
        show openingTag? ('<' :: d.toLower :: asciiLower s) = _
        rw [openingTag?, openingTag?, isAlpha_toLower, htake]
        cases d.isAlpha with
        | false => rfl
        | true =>
          rw [if_pos rfl, if_pos rfl, Option.map_map, Option.map_map]
          rfl
    · show openingTag? (c.toLower :: asciiLower s) = _
      rw [openingTag?_of_ne hc, openingTag?_of_ne (fun h => hc (hopen.1 h))]
      rfl

/-- Where a text has an opening tag, a text that differs from it in case
only has one of the same length. -/
theorem openingTag?_of_case {s s' : Text}
    (h : asciiLower s' = asciiLower s) :
    (openingTag? s').map asciiLower = (openingTag? s).map asciiLower := by
  rw [← openingTag?_asciiLower, h, openingTag?_asciiLower]

end ComponentMarkdown.Markup
