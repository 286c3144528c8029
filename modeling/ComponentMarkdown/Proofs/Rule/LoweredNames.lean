/-
Lowering attribute names once is enough. Attribute casing changes nothing
but the case of letters (`asciiLower_lowerNames`), so a text has its
quoted values and opening tags at the same places before and after, and
what it makes of a text holds no name that it would lower
(`count_apply_lowerNames`).

# Why no name appears

Each known name holds a capital among its first eleven characters, so a
lowered name starts none. A name in the lowered text consists of visible
characters behind a blank; the rule changes nothing before the next blank
that it does not take together with that blank (`lowerTag_visible`), so
the name stood there before, and was not known.
-/
import ComponentMarkdown.Proofs.Rule.AttributeCasing

namespace ComponentMarkdown

open Markup Text

namespace MixedCaseName

-- ============================================================ one name

theorem ofText?_spec {s : Text} {m : MixedCaseName}
    (h : ofText? s = some m) :
    ∃ c after, isBlank c = true ∧ (m.lead = [c] ∨ m.lead = [c, ':'])
      ∧ m.name ∈ known ∧ s = m.lead ++ m.name ++ after := by
  obtain ⟨after, rfl⟩ := taken_isPrefix h
  unfold ofText? at h
  split at h
  · rename_i c rest _
    split at h
    · rename_i hc
      obtain ⟨name, hname, rfl⟩ := Option.map_eq_some_iff.1 h
      exact ⟨c, after, hc, Or.inr rfl, List.mem_of_find?_eq_some hname, rfl⟩
    · cases h
  · rename_i c rest _ _
    split at h
    · rename_i hc
      obtain ⟨name, hname, rfl⟩ := Option.map_eq_some_iff.1 h
      exact ⟨c, after, hc, Or.inl rfl, List.mem_of_find?_eq_some hname, rfl⟩
    · cases h
  · cases h

/-- A known name is visible, and shows its case early. -/
theorem known_spec {name : Text} (h : name ∈ known) :
    (∀ c ∈ name, isBlank c = false ∧ isQuote c = false)
      ∧ 11 ≤ name.length ∧ ∃ c ∈ name.take 11, c.isUpper = true := by
  have hall : ∀ name ∈ known,
      name.all (fun c => !isBlank c && !isQuote c) = true
        ∧ 11 ≤ name.length
        ∧ (name.take 11).any Char.isUpper = true := by decide
  obtain ⟨hvisible, hlen, hupper⟩ := hall name h
  refine ⟨fun c hc => ?_, hlen, List.any_eq_true.1 hupper⟩
  have := List.all_eq_true.1 hvisible c hc
  simpa using this

/-- A lowered name starts no known one. -/
theorem lowered_ne_known {name name' x after : Text} (h : name ∈ known)
    (h' : name' ∈ known) : asciiLower name ++ x ≠ name' ++ after := by
  intro heq
  obtain ⟨-, hlen, -⟩ := known_spec h
  obtain ⟨-, hlen', c, hc, hupper⟩ := known_spec h'
  have htake := congrArg (List.take 11) heq
  rw [List.take_append_of_le_length (by rw [length_asciiLower]; exact hlen),
    List.take_append_of_le_length hlen'] at htake
  rw [← htake] at hc
  obtain ⟨d, -, rfl⟩ := List.mem_map.1 (List.mem_of_mem_take hc)
  rw [isUpper_toLower] at hupper
  cases hupper

/-- Lowering a name changes nothing but case. -/
theorem asciiLower_lowered (m : MixedCaseName) :
    asciiLower m.lowered = asciiLower (m.lead ++ m.name) := by
  unfold lowered
  rw [asciiLower_append, asciiLower_append, asciiLower_asciiLower]

-- ============================================================= one tag

/-- A tag with its names lowered. -/
def lowerTag (tag : Text) : Text := (convertTag tag).text

theorem lowerTag_nil : lowerTag [] = [] :=
  scanner.splice_nil _

/-- A quoted value is copied. -/
theorem lowerTag_of_quoted {s t : Text} (hq : quoted? s = some t) :
    lowerTag s = t ++ lowerTag (s.drop t.length) :=
  scanner.splice_of_hit (passesQuoted_scanner.of_quoted hq) _

/-- A mixed-case name is lowered. -/
theorem lowerTag_of_name {s : Text} {m : MixedCaseName}
    (hm : ofText? s = some m) :
    lowerTag s
      = m.lowered ++ lowerTag (s.drop (m.lead ++ m.name).length) := by
  have hscan := passesQuoted_scanner.of_unquoted
    (quoted?_eq_none_of_ofText? hm)
  rw [hm] at hscan
  exact scanner.splice_of_hit hscan _

/-- Any other character is copied. -/
theorem lowerTag_of_char {c : Char} {rest : Text}
    (hq : quoted? (c :: rest) = none) (hm : ofText? (c :: rest) = none) :
    lowerTag (c :: rest) = c :: lowerTag rest := by
  have hscan := passesQuoted_scanner.of_unquoted hq
  rw [hm] at hscan
  exact scanner.splice_of_none hscan _

/-- The places of a tag at which the rule looks. -/
theorem tag_induction {motive : Text → Prop} (s : Text)
    (nil : motive [])
    (quoted : ∀ s t, quoted? s = some t → motive (s.drop t.length)
      → motive s)
    (name : ∀ s m, ofText? s = some m
      → motive (s.drop (m.lead ++ m.name).length) → motive s)
    (char : ∀ c rest, quoted? (c :: rest) = none
      → ofText? (c :: rest) = none → motive rest → motive (c :: rest)) :
    motive s := by
  refine passesQuoted_scanner.induction_on s nil quoted ?_ ?_
  · intro s h _ hs ih
    obtain ⟨m, hm, rfl⟩ := Option.map_eq_some_iff.1 hs
    exact name s m hm ih
  · intro c rest hq hs ih
    exact char c rest hq (Option.map_eq_none_iff.1 hs) ih

/-- Lowering the names of a tag changes nothing but case. -/
theorem asciiLower_lowerTag (s : Text) :
    asciiLower (lowerTag s) = asciiLower s := by
  induction s using tag_induction with
  | nil => rw [lowerTag_nil]
  | quoted s t hq ih =>
    obtain ⟨rest, rfl⟩ := quoted?_isPrefix hq
    rw [lowerTag_of_quoted hq, asciiLower_append, ih, List.drop_left,
      asciiLower_append]
  | name s m hm ih =>
    obtain ⟨rest, rfl⟩ := taken_isPrefix hm
    rw [lowerTag_of_name hm, asciiLower_append, ih, List.drop_left,
      asciiLower_append, asciiLower_lowered]
  | char c rest hq hm ih =>
    rw [lowerTag_of_char hq hm]
    exact congrArg (c.toLower :: ·) ih

/-- Visible characters at the head of a lowered tag stood there before. -/
theorem lowerTag_visible {w after s : Text}
    (hw : ∀ c ∈ w, isBlank c = false ∧ isQuote c = false)
    (h : lowerTag s = w ++ after) :
    ∃ after', s = w ++ after' ∧ asciiLower after' = asciiLower after := by
  induction w generalizing s with
  | nil =>
    refine ⟨s, rfl, ?_⟩
    rw [← asciiLower_lowerTag s, h, List.nil_append]
  | cons x w ih =>
    obtain ⟨⟨hblank, hquote⟩, hmore⟩ := List.forall_mem_cons.1 hw
    cases s with
    | nil =>
      rw [lowerTag_nil] at h
      cases h
    | cons c s =>
      cases hq : quoted? (c :: s) with
      | some t =>
        rw [lowerTag_of_quoted hq] at h
        obtain ⟨q, t', rfl, hisquote⟩ := quoted?_head hq
        obtain ⟨rfl, -⟩ := List.cons.inj h
        rw [hquote] at hisquote
        cases hisquote
      | none =>
        cases hm : ofText? (c :: s) with
        | some m =>
          obtain ⟨b, -, hb, hlead, -⟩ := ofText?_spec hm
          rw [lowerTag_of_name hm] at h
          unfold lowered at h
          have hx : b = x := by
            rcases hlead with hlead | hlead <;> rw [hlead] at h <;>
              exact (List.cons.inj h).1
          rw [hx, hblank] at hb
          cases hb
        | none =>
          rw [lowerTag_of_char hq hm] at h
          obtain ⟨hx, hrest⟩ := List.cons.inj h
          obtain ⟨after', rfl, hafter⟩ := ih hmore hrest
          exact ⟨after', by rw [hx, List.cons_append], hafter⟩

theorem endsBefore_toLower (c : Char) :
    endsBefore [c.toLower] = endsBefore [c] :=
  caseless (f := fun c => endsBefore [c]) (by decide) c

/-- Whether a name ends before a text does not depend on case. -/
theorem endsBefore_of_case {a b : Text} (h : asciiLower a = asciiLower b) :
    endsBefore a = endsBefore b := by
  cases a with
  | nil =>
    cases b with
    | nil => rfl
    | cons d b => cases h
  | cons c a =>
    cases b with
    | nil => cases h
    | cons d b =>
      have hcd : c.toLower = d.toLower := (List.cons.inj h).1
      calc endsBefore (c :: a)
          = endsBefore [c.toLower] := (endsBefore_toLower c).symm
        _ = endsBefore [d.toLower] := by rw [hcd]
        _ = endsBefore (d :: b) := endsBefore_toLower d

/-- Where no name stood, none stands once the rest of the tag is
lowered. -/
theorem not_heads_cons {c : Char} {rest : Text}
    (hm : ofText? (c :: rest) = none) : ¬ Heads (c :: lowerTag rest) := by
  rw [ofText?_eq_none_iff] at hm
  intro h
  obtain ⟨lead, name, after, d, heq, hd, hlead, hname, hend⟩ := h
  obtain ⟨hvisible, -, -⟩ := known_spec hname
  rcases hlead with rfl | rfl
  · obtain ⟨rfl, hrest⟩ := List.cons.inj heq
    obtain ⟨after', rfl, hafter⟩ := lowerTag_visible hvisible hrest
    refine hm ⟨[c], name, after', c, rfl, hd, Or.inl rfl, hname, ?_⟩
    rw [endsBefore_of_case hafter, hend]
  · obtain ⟨rfl, hrest⟩ := List.cons.inj heq
    have hcolon : ∀ x ∈ ':' :: name, isBlank x = false ∧ isQuote x = false :=
      List.forall_mem_cons.2 ⟨by decide, hvisible⟩
    obtain ⟨after', rfl, hafter⟩ := lowerTag_visible hcolon hrest
    refine hm ⟨[c, ':'], name, after', c, rfl, hd, Or.inr rfl, hname, ?_⟩
    rw [endsBefore_of_case hafter, hend]

theorem not_heads_visible {c : Char} (hc : isBlank c = false) (s : Text) :
    ¬ Heads (c :: s) := by
  intro h
  obtain ⟨lead, name, after, d, heq, hd, hlead, -, -⟩ := h
  have hcd : c = d := by
    rcases hlead with rfl | rfl <;> exact (List.cons.inj heq).1
  rw [← hcd, hc] at hd
  cases hd

theorem isQuote_toLower (c : Char) : isQuote c.toLower = isQuote c :=
  caseless (by decide) c

/-- The small letters of a known name are as visible as the name. -/
theorem visible_asciiLower {name : Text} (h : name ∈ known) :
    ∀ c ∈ asciiLower name, isBlank c = false ∧ isQuote c = false := by
  obtain ⟨hvisible, -, -⟩ := known_spec h
  intro c hc
  obtain ⟨d, hd, rfl⟩ := List.mem_map.1 hc
  rw [isBlank_toLower, isQuote_toLower]
  exact hvisible d hd

/-- Neither a known name nor its small letters start with a colon. -/
theorem ne_colon_cons {name : Text} (h : name ∈ known) (u v : Text) :
    name ++ u ≠ ':' :: v ∧ asciiLower name ++ u ≠ ':' :: v := by
  have hhead : ∀ name ∈ known, name ≠ [] ∧ name.head? ≠ some ':'
      ∧ (asciiLower name).head? ≠ some ':' := by decide
  obtain ⟨hne, hname, hlower⟩ := hhead name h
  cases name with
  | nil => exact absurd rfl hne
  | cons c name =>
    constructor
    · intro heq
      obtain ⟨rfl, -⟩ := List.cons.inj heq
      exact hname rfl
    · intro heq
      obtain ⟨hc, -⟩ := List.cons.inj heq
      exact hlower (congrArg some hc)

/-- No known name stands behind the blank of a lowered one. -/
theorem not_heads_lowered {lead name : Text} {c : Char}
    (hlead : lead = [c] ∨ lead = [c, ':']) (hname : name ∈ known)
    (x : Text) : ¬ Heads (lead ++ (asciiLower name ++ x)) := by
  intro h
  obtain ⟨lead', name', after, d, heq, -, hlead', hname', -⟩ := h
  rw [List.append_assoc] at heq
  rcases hlead with rfl | rfl
  · rcases hlead' with rfl | rfl
    · obtain ⟨-, hrest⟩ := List.cons.inj heq
      exact lowered_ne_known hname hname' hrest
    · obtain ⟨-, hrest⟩ := List.cons.inj heq
      exact (ne_colon_cons hname _ _).2 hrest
  · rcases hlead' with rfl | rfl
    · obtain ⟨-, hrest⟩ := List.cons.inj heq
      exact (ne_colon_cons hname' _ _).1 hrest.symm
    · obtain ⟨-, hrest⟩ := List.cons.inj heq
      obtain ⟨-, hrest⟩ := List.cons.inj hrest
      exact lowered_ne_known hname hname' hrest

/-- No name stands in what a name is lowered to. -/
theorem outside_lowered {s x r : Text} {m : MixedCaseName}
    (hm : ofText? s = some m) (hr : Outside (m.lowered ++ x) r) :
    ¬ Heads r ∨ Outside x r := by
  obtain ⟨c, -, hc, hlead, hname, -⟩ := ofText?_spec hm
  have hnot := not_heads_lowered hlead hname x
  obtain ⟨w, hw, htext⟩ : ∃ w, (∀ d ∈ w, isBlank d = false
      ∧ isQuote d = false) ∧ m.lowered = c :: w := by
    unfold lowered
    rcases hlead with hlead | hlead <;> rw [hlead]
    · exact ⟨_, visible_asciiLower hname, rfl⟩
    · exact ⟨':' :: asciiLower m.name,
        List.forall_mem_cons.2 ⟨by decide, visible_asciiLower hname⟩, rfl⟩
  rw [← List.append_assoc] at hnot
  change ¬ Heads (m.lowered ++ x) at hnot
  rw [htext, List.cons_append] at hr hnot
  have hquote := quoted?_eq_none (isQuote_of_isBlank hc) (w ++ x)
  rcases (outside_of_unquoted hquote).1 hr with rfl | hr
  · exact Or.inl hnot
  · rcases outside_visible hw hr with ⟨d, rest, rfl, hd⟩ | hr
    · exact Or.inl (not_heads_visible hd rest)
    · exact Or.inr hr

/-- Lowering creates and destroys no quoted value. -/
theorem quoted?_cons_lowerTag {c : Char} {rest : Text}
    (h : quoted? (c :: rest) = none) :
    quoted? (c :: lowerTag rest) = none := by
  rw [quoted?_cons_eq_none_iff] at h ⊢
  intro hc hmem
  have halpha : c.isAlpha = false :=
    isAlpha_of_quote (isQuote_iff.1 hc)
  rw [← mem_asciiLower_iff halpha, asciiLower_lowerTag,
    mem_asciiLower_iff halpha] at hmem
  exact h hc hmem

/-- A lowered tag holds no name that would be lowered. -/
theorem not_heads_of_outside_lowerTag (tag : Text) :
    ∀ r, Outside (lowerTag tag) r → ¬ Heads r := by
  induction tag using tag_induction with
  | nil =>
    intro r hr
    rw [lowerTag_nil] at hr
    rw [List.suffix_nil.1 hr.isSuffix, ← ofText?_eq_none_iff]
    rfl
  | quoted s t hq ih =>
    intro r hr
    rw [lowerTag_of_quoted hq] at hr
    rcases (outside_of_quoted (quoted?_append hq _)).1 hr with rfl | hr
    · obtain ⟨q, t', rfl, hquote⟩ := quoted?_head hq
      exact not_heads_visible (isBlank_of_isQuote hquote) _
    · rw [List.drop_left] at hr
      exact ih r hr
  | name s m hm ih =>
    intro r hr
    rw [lowerTag_of_name hm] at hr
    rcases outside_lowered hm hr with hnot | hr
    · exact hnot
    · exact ih r hr
  | char c rest hq hm ih =>
    intro r hr
    rw [lowerTag_of_char hq hm] at hr
    rcases (outside_of_unquoted (quoted?_cons_lowerTag hq)).1 hr with rfl | hr
    · exact not_heads_cons hm
    · exact ih r hr

/-- A tag without replacements has its names lowered already. -/
theorem convertTag_of_count_zero {tag : Text}
    (h : (convertTag tag).count = 0) : lowerTag tag = tag :=
  scanner.spliceFrom_text_of_count_zero _ () tag h

-- ============================================================ one text

/-- A text with the names in its opening tags lowered. -/
def lowerNames (s : Text) : Text := (Rule.attributeCasing.apply s).text

/-- So has a text without replacements. -/
theorem lowerNames_of_count_zero {s : Text}
    (h : (Rule.attributeCasing.apply s).count = 0) : lowerNames s = s :=
  openingTags.spliceFrom_text_of_count_zero _ () s h

theorem lowerNames_nil : lowerNames [] = [] :=
  openingTags.splice_nil _

/-- The names of an opening tag are lowered. -/
theorem lowerNames_of_tag {s tag : Text} (h : openingTag? s = some tag) :
    lowerNames s = lowerTag tag ++ lowerNames (s.drop tag.length) := by
  unfold lowerNames
  refine (openingTags.splice_of_hit (scan_openingTags_of_some h) _).trans ?_
  congr 1
  unfold Scanner.spliced
  split
  · rename_i hzero
    exact (convertTag_of_count_zero hzero).symm
  · rfl

/-- A character that starts no opening tag is copied. -/
theorem lowerNames_of_char {c : Char} {rest : Text}
    (h : openingTag? (c :: rest) = none) :
    lowerNames (c :: rest) = c :: lowerNames rest :=
  openingTags.splice_of_none (scan_openingTags_of_none h) _

/-- Attribute casing changes nothing but the case of letters. -/
theorem asciiLower_lowerNames (s : Text) :
    asciiLower (lowerNames s) = asciiLower s := by
  induction s using openingTag_induction with
  | nil => rw [lowerNames_nil]
  | tag s tag h ih =>
    obtain ⟨rest, rfl⟩ := openingTag?_isPrefix h
    rw [List.drop_left] at ih
    rw [lowerNames_of_tag h, asciiLower_append, asciiLower_lowerTag,
      List.drop_left, ih, asciiLower_append]
  | char c rest h ih =>
    rw [lowerNames_of_char h]
    exact congrArg (c.toLower :: ·) ih

/-- Lowering keeps the length of a tag. -/
theorem length_lowerTag (tag : Text) : (lowerTag tag).length = tag.length := by
  rw [← length_asciiLower, asciiLower_lowerTag, length_asciiLower]

/-- Opening tags stay opening tags. -/
theorem openingTag?_lowerNames {s tag : Text}
    (h : openingTag? s = some tag) :
    openingTag? (lowerNames s) = some (lowerTag tag) := by
  have hcase := openingTag?_of_case (asciiLower_lowerNames s)
  rw [h, Option.map_some] at hcase
  obtain ⟨tag', htag', hlower⟩ := Option.map_eq_some_iff.1 hcase
  -- what is read has the length of the tag, and so has the lowered tag
  have hlen : tag'.length = (lowerTag tag).length := by
    rw [length_lowerTag, ← length_asciiLower, hlower, length_asciiLower]
  obtain ⟨rest, hrest⟩ := openingTag?_isPrefix htag'
  rw [lowerNames_of_tag h] at hrest
  rw [htag', List.append_inj_left hrest hlen]

/-- Lowering finds the same opening tags again, each with its names lowered. -/
theorem openingTagsOf_lowerNames (s : Text) :
    openingTagsOf (lowerNames s) = (openingTagsOf s).map lowerTag := by
  induction s using openingTag_induction with
  | nil => rw [lowerNames_nil, openingTagsOf_nil, List.map_nil]
  | tag s tag h ih =>
    rw [openingTagsOf_of_tag (openingTag?_lowerNames h),
      openingTagsOf_of_tag h, lowerNames_of_tag h, List.drop_left, ih,
      List.map_cons]
  | char c rest h ih =>
    have hcase := openingTag?_of_case (asciiLower_lowerNames (c :: rest))
    rw [h, lowerNames_of_char h, Option.map_none,
      Option.map_eq_none_iff] at hcase
    rw [openingTagsOf_of_char h, lowerNames_of_char h,
      openingTagsOf_of_char hcase, ih]

/-- What the rule makes of a text holds no name that it would lower. -/
theorem count_apply_lowerNames (s : Text) :
    (Rule.attributeCasing.apply (lowerNames s)).count = 0 := by
  rw [count_apply_attributeCasing_eq_zero_iff, openingTagsOf_lowerNames,
    List.forall_mem_map]
  intro tag _
  exact not_heads_of_outside_lowerTag tag

end MixedCaseName

end ComponentMarkdown
