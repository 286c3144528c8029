/-
The rules inside tags and the iframes, whatever the line ends. With returns
before the line feeds of a text, each of these rules makes the same
substitutions at the same places and leaves no return behind
(`alike_apply_braceAttributes` and its fellows).

An attribute in braces may hold line feeds in its value, and nowhere else
but in front. A name in mixed case may have one in front. An iframe may hold
them among its attributes, and those are trimmed at the end, where alone the
two readings of a tag can differ.
-/
import ComponentMarkdown.Proofs.Markup.LineEnds
import ComponentMarkdown.Proofs.Rule.BraceAttributes
import ComponentMarkdown.Proofs.Rule.LoweredNames
import ComponentMarkdown.Rule.IframeClosing

namespace ComponentMarkdown

open Markup Text

-- ========================================================= opening tags

/-- An edit of opening tags that keeps their bracket. -/
theorem alike_editOpeningTags {edit : Text → Edited}
    (h : ∀ tag, (edit tag).AlikeUpTo 0 (edit (crlf tag)))
    (hhead : ∀ t, ∃ new, (edit ('<' :: t)).text = '<' :: new) (s : Text) :
    (editOpeningTags edit s).AlikeUpTo 0 (editOpeningTags edit (crlf s)) := by
  refine seesThrough_openingTags.splice ?_ s
  intro c s tail v v' _ hs _
  obtain ⟨tag, htag, heq⟩ := Option.map_eq_some_iff.1 hs
  cases heq
  obtain rfl : c = '<' := by
    refine Decidable.byContradiction fun hc => ?_
    obtain ⟨rest, rfl⟩ := openingTag?_isPrefix htag
    rw [List.cons_append, openingTag?_of_ne hc] at htag
    cases htag
  have halike := h ('<' :: tail)
  rw [crlf_char (by decide)] at halike
  refine ⟨rfl, halike.count, ?_⟩
  unfold Scanner.resultAt Scanner.spliced
  dsimp only
  rw [halike.count]
  split
  · exact ⟨tail, crlf tail, rfl, rfl, returnsUpTo_crlf tail⟩
  · obtain ⟨new, hnew⟩ := hhead tail
    rw [halike.text.eq rfl, hnew, crlf_char (by decide)]
    exact ⟨new, crlf new, rfl, rfl, returnsUpTo_crlf new⟩

section

variable {α : Type} {sc : Scanner (Option α)} {scan : Text → Option (Hit α)}
  (hscan : PassesQuoted sc scan)

include hscan

/-- Replacing what is read outside quoted values, if that makes the same of
each reading. -/
theorem alike_replace_of_passesQuoted {Alike : α → α → Prop}
    (hsees : sc.SeesThrough (Option.Rel Alike))
    (new? : Option α → Option Text) (hnone : new? none = none)
    (h : ∀ {c s tail v v'}, scan s = some ⟨c :: tail, v⟩ → Alike v v' →
      Scanner.ReplacesAlike c 0 (new? (some v)) (new? (some v')))
    (tag : Text) :
    (sc.replace (fun h => new? h.value) tag).AlikeUpTo 0
      (sc.replace (fun h => new? h.value) (crlf tag)) := by
  refine hsees.replace (fun c s tail v v' hs hv => ?_) tag
  cases hv with
  | none =>
    dsimp only
    rw [hnone]
    exact Or.inl ⟨rfl, rfl, rfl⟩
  | some hv => exact h (hscan.scan_of_some hs) hv

/-- A character at the start that is neither read nor a quote is kept. -/
theorem head_replace_of_passesQuoted {c : Char} (hc : isQuote c = false)
    {t : Text} (ht : scan (c :: t) = none)
    (new? : Hit (Option α) → Option Text) :
    ∃ new, (sc.replace new? (c :: t)).text = c :: new := by
  have hnone : sc.scan (c :: t) = none := by
    rw [hscan.of_unquoted (quoted?_eq_none hc t), ht]
    rfl
  exact ⟨_, sc.splice_of_none hnone _⟩

end

-- =================================================== attributes in braces

namespace BraceAttribute

/-- The attribute with a return before every line feed of its value. -/
def withReturns (a : BraceAttribute) : BraceAttribute :=
  { a with value := crlf a.value }

/-- The value behind an opening brace, if there is one. -/
def value? (inside : Text) : Option Text :=
  match inside.takeWhile isValueChar, inside.dropWhile isValueChar with
  | v :: value, '}' :: _ => some (v :: value)
  | _, _ => none

/-- A value is read with its line ends. -/
theorem value?_crlf (s : Text) : value? (crlf s) = (value? s).map crlf := by
  unfold value?
  rw [takeWhile_crlf (by decide), dropWhile_crlf (by decide)]
  generalize s.takeWhile isValueChar = value
  generalize s.dropWhile isValueChar = behind
  split
  · rename_i v more _ hvalue hbehind
    obtain ⟨rest, rfl, -⟩ := exists_of_crlf_eq_cons (by decide) hbehind
    cases value with
    | nil => cases hvalue
    | cons w value =>
      rw [← hvalue]
      rfl
  · rename_i hnot
    split
    · rename_i w value rest
      obtain ⟨v, more, hvalue⟩ := List.exists_cons_of_ne_nil
        (fun h => List.cons_ne_nil w value (crlf_eq_nil_iff.1 h))
      exact absurd rfl (hnot v more (crlf rest) hvalue)
    · rfl

theorem ofText?_eq (c d : Char) (s : Text) :
    ofText? (c :: d :: s)
      = if isBlank c && isNameStart d then
          match s.dropWhile isNameChar with
          | '=' :: '{' :: inside => (value? inside).map fun value =>
            ⟨c, d :: s.takeWhile isNameChar, value⟩
          | _ => none
        else none := by
  unfold ofText? isNameStart
  dsimp only
  generalize s.dropWhile isNameChar = behind
  split
  · split
    · rename_i inside
      show _ = (value? inside).map _
      unfold value?
      generalize inside.takeWhile isValueChar = value
      generalize inside.dropWhile isValueChar = after
      split
      · rfl
      · simp
    · simp
  · rfl

theorem ofText?_crlf (c : Char) (s : Text) :
    ofText? (c :: crlf s) = (ofText? (c :: s)).map withReturns := by
  cases s with
  | nil => rfl
  | cons d s =>
    by_cases hd : d = '\n'
    · subst hd
      rw [crlf_feed, ofText?_of_no_name (by decide),
        ofText?_of_no_name (by decide)]
      rfl
    · rw [crlf_char hd, ofText?_eq, ofText?_eq]
      split
      · rw [dropWhile_crlf (by decide), takeWhile_crlf (by decide),
          crlf_takeWhile (by decide)]
        generalize s.dropWhile isNameChar = behind
        split
        · rename_i inside heq
          obtain ⟨rest, rfl, hrest⟩ :=
            exists_of_crlf_eq_cons (by decide) heq
          obtain ⟨inside', rfl, rfl⟩ :=
            exists_of_crlf_eq_cons (by decide) hrest.symm
          rw [value?_crlf, Option.map_map]
          show _ = ((value? inside').map _).map _
          rw [Option.map_map]
          rfl
        · rename_i hnot
          split
          · rename_i inside
            exact absurd rfl (hnot (crlf inside))
          · rfl
      · rfl

/-- No name goes over the end of a line. -/
theorem line_not_mem_name {s : Text} {a : BraceAttribute}
    (h : ofText? s = some a) : '\n' ∉ a.name := by
  intro hmem
  obtain ⟨first, rest, hname, hfirst, hrest⟩ := (wellFormed_of_ofText? h).name
  rw [hname, List.mem_cons] at hmem
  rcases hmem with rfl | hmem
  · cases hfirst
  · cases hrest _ hmem

theorem written_withReturns {a : BraceAttribute} (hname : '\n' ∉ a.name) :
    ∃ tail, a.written = a.lead :: tail
      ∧ a.withReturns.written = a.lead :: crlf tail := by
  refine ⟨a.name ++ '=' :: '{' :: a.value ++ ['}'], rfl, ?_⟩
  rw [crlf_append, crlf_append, crlf_of_not_mem hname]
  rfl

theorem seesThrough_scanner :
    scanner.SeesThrough (Option.Rel fun a a' => a' = a.withReturns) := by
  refine seesThrough_of_passesQuoted passesQuoted_scanner (fun t => ?_)
    (fun {c t} h => ?_) (fun {c t tail a} h => ?_)
  · rw [ofText?_of_no_name (by decide)]
    rfl
  · rw [ofText?_crlf, Option.map_eq_none_iff.1 h]
    rfl
  · obtain ⟨b, hb, heq⟩ := Option.map_eq_some_iff.1 h
    obtain ⟨htaken, rfl⟩ := Hit.mk.inj heq
    obtain ⟨tail', hwritten, hwritten'⟩ :=
      written_withReturns (line_not_mem_name hb)
    rw [hwritten] at htaken
    obtain ⟨hlead, rfl⟩ := List.cons.inj htaken
    refine ⟨b.withReturns, rfl, ?_⟩
    rw [ofText?_crlf, hb, ← hlead, ← hwritten']
    rfl

theorem crlf_quoted {name : Text} (hname : '\n' ∉ name) (value : Text) :
    crlf (name ++ '=' :: '"' :: value ++ ['"'])
      = name ++ '=' :: '"' :: crlf value ++ ['"'] := by
  rw [crlf_append, crlf_append, crlf_of_not_mem hname]
  rfl

theorem template?_withReturns {a : BraceAttribute} (hname : '\n' ∉ a.name) :
    Scanner.ReplacesAlike a.lead 0 a.template? a.withReturns.template? := by
  have hcopy : a.withReturns.value.trim = crlf a.value.trim :=
    trim_crlf a.value
  unfold template?
  rw [hcopy]
  cases hvalue : a.value.trim with
  | nil => exact Or.inl ⟨rfl, rfl, rfl⟩
  | cons v value =>
    obtain ⟨w, more, hcons⟩ := List.exists_cons_of_ne_nil
      (fun h => List.cons_ne_nil v value (crlf_eq_nil_iff.1 h))
    rw [hcons]
    dsimp only
    rw [← hcons, all_crlf (by decide)]
    split
    · have halike := Scanner.replacesAlike_crlf a.lead
        (some (a.name ++ '=' :: '"' :: (v :: value) ++ ['"']))
      dsimp only [Option.map_some] at halike
      rw [crlf_quoted hname] at halike
      exact halike
    · have halike := Scanner.replacesAlike_crlf a.lead
        (some (':' :: (a.name ++ '=' :: '"' :: a.value ++ ['"'])))
      dsimp only [Option.map_some] at halike
      rw [crlf_char (by decide), crlf_quoted hname] at halike
      exact halike

theorem alike_convertTag (tag : Text) :
    (convertTag tag).AlikeUpTo 0 (convertTag (crlf tag)) := by
  refine alike_replace_of_passesQuoted passesQuoted_scanner seesThrough_scanner
    (·.bind template?) rfl (fun {c s tail v v'} hs hv => ?_) tag
  subst hv
  obtain ⟨a, ha, heq⟩ := Option.map_eq_some_iff.1 hs
  obtain ⟨htaken, rfl⟩ := Hit.mk.inj heq
  obtain ⟨rfl, -⟩ := List.cons.inj htaken
  exact template?_withReturns (line_not_mem_name ha)

/-- What does not start with a blank or a quote is kept. -/
theorem head_convertTag (t : Text) :
    ∃ new, (convertTag ('<' :: t)).text = '<' :: new := by
  refine head_replace_of_passesQuoted passesQuoted_scanner (by decide) ?_ _
  rw [ofText?_of_visible (by decide)]
  rfl

end BraceAttribute

/-- Line ends do not matter to the brace attributes. -/
theorem alike_apply_braceAttributes (s : Text) :
    (Rule.braceAttributes.apply s).AlikeUpTo 0
      (Rule.braceAttributes.apply (crlf s)) :=
  alike_editOpeningTags BraceAttribute.alike_convertTag
    BraceAttribute.head_convertTag s

-- ==================================================== names in mixed case

namespace MixedCaseName

theorem endsBefore_crlf (s : Text) :
    endsBefore (crlf s) = endsBefore s := by
  cases s with
  | nil => rfl
  | cons c s =>
    by_cases hc : c = '\n'
    · subst hc
      rfl
    · rw [crlf_char hc]
      rfl

/-- Line ends do not matter to the known names. -/
theorem known?_crlf (s : Text) : known? (crlf s) = known? s := by
  have hplain : ∀ name ∈ known, '\n' ∉ name ∧ '\r' ∉ name := by decide
  unfold known?
  rw [← List.head?_filter, ← List.head?_filter]
  refine congrArg List.head? (List.filter_congr fun name hname => ?_)
  obtain ⟨hfeed, hreturn⟩ := hplain name hname
  rw [isPrefixOf_crlf hfeed hreturn]
  cases hp : name.isPrefixOf s with
  | false => rfl
  | true => rw [drop_crlf hfeed hp, endsBefore_crlf]

theorem ofText?_crlf (c : Char) (s : Text) :
    ofText? (c :: crlf s) = ofText? (c :: s) := by
  cases s with
  | nil => rfl
  | cons d s =>
    have hknown := known?_crlf (d :: s)
    by_cases hd : d = '\n'
    · subst hd
      rw [crlf_feed] at hknown ⊢
      rw [ofText?_of_ne_colon (by decide), ofText?_of_ne_colon (by decide),
        hknown]
    · rw [crlf_char hd] at hknown ⊢
      by_cases hcolon : d = ':'
      · subst hcolon
        rw [ofText?_colon, ofText?_colon, known?_crlf]
      · rw [ofText?_of_ne_colon hcolon, ofText?_of_ne_colon hcolon, hknown]

/-- A name stands on one line but for what is in front of it. -/
theorem written_crlf {s : Text} {m : MixedCaseName}
    (h : ofText? s = some m) :
    ∃ c tail, m.lead ++ m.name = c :: tail ∧ crlf tail = tail := by
  obtain ⟨c, -, -, hlead, hname, -⟩ := ofText?_spec h
  have hplain : ∀ name ∈ known, '\n' ∉ name := by decide
  rcases hlead with hlead | hlead
  · exact ⟨c, m.name, by rw [hlead]; rfl,
      crlf_of_not_mem (hplain m.name hname)⟩
  · refine ⟨c, ':' :: m.name, by rw [hlead]; rfl, ?_⟩
    rw [crlf_char (by decide), crlf_of_not_mem (hplain m.name hname)]

theorem lowered_crlf {s : Text} {m : MixedCaseName} (h : ofText? s = some m)
    {c : Char} {tail : Text} (htaken : m.lead ++ m.name = c :: tail) :
    Scanner.ReplacesAlike c 0 (some m.lowered) (some m.lowered) := by
  obtain ⟨d, -, -, hlead, hname, -⟩ := ofText?_spec h
  have hplain : ∀ name ∈ known, '\n' ∉ name.asciiLower := by decide
  have hlower := crlf_of_not_mem (hplain m.name hname)
  unfold lowered
  rcases hlead with hlead | hlead
  · rw [hlead] at htaken ⊢
    obtain ⟨rfl, -⟩ := List.cons.inj htaken
    have halike := Scanner.replacesAlike_crlf d (some m.name.asciiLower)
    dsimp only [Option.map_some] at halike
    rw [hlower] at halike
    exact halike
  · rw [hlead] at htaken ⊢
    obtain ⟨rfl, -⟩ := List.cons.inj htaken
    have halike := Scanner.replacesAlike_crlf d
      (some (':' :: m.name.asciiLower))
    dsimp only [Option.map_some] at halike
    rw [crlf_char (by decide), hlower] at halike
    exact halike

theorem seesThrough_scanner : scanner.SeesThrough (Option.Rel Eq) := by
  refine seesThrough_of_passesQuoted passesQuoted_scanner (fun t => ?_)
    (fun {c t} h => ?_) (fun {c t tail m} h => ?_)
  · rw [ofText?_of_ne_colon (by decide)]
    rfl
  · rw [ofText?_crlf, Option.map_eq_none_iff.1 h]
    rfl
  · obtain ⟨m', hm, heq⟩ := Option.map_eq_some_iff.1 h
    obtain ⟨htaken, rfl⟩ := Hit.mk.inj heq
    obtain ⟨c', tail', hwritten, hcopy⟩ := written_crlf hm
    rw [hwritten] at htaken
    obtain ⟨rfl, rfl⟩ := List.cons.inj htaken
    refine ⟨m', rfl, ?_⟩
    rw [ofText?_crlf, hm, hcopy, ← hwritten]
    rfl

theorem alike_convertTag (tag : Text) :
    (convertTag tag).AlikeUpTo 0 (convertTag (crlf tag)) := by
  refine alike_replace_of_passesQuoted passesQuoted_scanner seesThrough_scanner
    (·.map lowered) rfl (fun {c s tail v v'} hs hv => ?_) tag
  subst hv
  obtain ⟨m, hm, heq⟩ := Option.map_eq_some_iff.1 hs
  obtain ⟨htaken, rfl⟩ := Hit.mk.inj heq
  exact lowered_crlf hm htaken

theorem head_convertTag (t : Text) :
    ∃ new, (convertTag ('<' :: t)).text = '<' :: new := by
  refine head_replace_of_passesQuoted passesQuoted_scanner (by decide) ?_ _
  rw [(ofText?_cons '<' t).2 fun h => absurd h (by decide)]
  rfl

end MixedCaseName

/-- Line ends do not matter to the case of attributes. -/
theorem alike_apply_attributeCasing (s : Text) :
    (Rule.attributeCasing.apply s).AlikeUpTo 0
      (Rule.attributeCasing.apply (crlf s)) :=
  alike_editOpeningTags MixedCaseName.alike_convertTag
    MixedCaseName.head_convertTag s

-- ============================================================== iframes

namespace SelfClosingIframe

theorem opening_eq : opening = '<' :: "iframe".toList := rfl

theorem ofText?_crlf (c : Char) (s : Text) :
    (ofText? (c :: s) = none → ofText? (c :: crlf s) = none)
      ∧ ∀ r, ofText? (c :: s) = some r → ∃ r', ofText? (c :: crlf s) = some r'
        ∧ AttributesAlike r r' := by
  by_cases hc : c = '\n'
  · subst hc
    exact ⟨fun _ => rfl, nofun⟩
  · rw [← crlf_char hc]
    have hfeed : '\n' ∉ opening := by decide
    unfold ofText?
    rw [isPrefixOf_crlf hfeed (by decide)]
    split
    · rename_i hp
      rw [drop_crlf hfeed hp]
      exact attributes?_crlf (stopsAlike_selfClose ()) _
    · exact ⟨fun _ => rfl, nofun⟩

theorem seesThrough_scanner :
    scanner.SeesThrough fun a a' => a'.trimEnd = crlf a.trimEnd := by
  refine ⟨fun t => rfl, fun {c t} h => ?_, fun {c t tail a} h => ?_⟩
  · have hnone := (ofText?_crlf c t).1 (Option.map_eq_none_iff.1 h)
    exact Option.map_eq_none_iff.2 hnone
  · obtain ⟨r, hr, heq⟩ := Option.map_eq_some_iff.1 h
    obtain ⟨htaken, rfl⟩ := Hit.mk.inj heq
    obtain ⟨r', hr', halike⟩ := (ofText?_crlf c t).2 r hr
    refine ⟨r'.1, halike.trimEnd, Option.map_eq_some_iff.2 ⟨r', hr', ?_⟩⟩
    rw [List.append_assoc, opening_eq, List.cons_append] at htaken
    obtain ⟨rfl, rfl⟩ := List.cons.inj htaken
    have hname : crlf "iframe".toList = "iframe".toList := rfl
    rw [List.append_assoc, halike.taken, opening_eq, List.cons_append,
      crlf_append "iframe".toList, hname]

/-- Blanks behind the attributes do not matter to the expanded form, and line
ends stay in it. -/
theorem expanded_of_trimEnd {a a' : Text} (h : a'.trimEnd = crlf a.trimEnd) :
    ∃ rest, expanded a = '<' :: rest ∧ expanded a' = '<' :: crlf rest := by
  refine ⟨"iframe".toList ++ a.trimEnd ++ "></iframe>".toList, rfl, ?_⟩
  unfold expanded
  rw [h, crlf_append, crlf_append]
  rfl

end SelfClosingIframe

/-- Line ends do not matter to self-closing iframes. -/
theorem alike_apply_iframeClosing (s : Text) :
    (Rule.iframeClosing.apply s).AlikeUpTo 0
      (Rule.iframeClosing.apply (crlf s)) := by
  refine SelfClosingIframe.seesThrough_scanner.replace
    (fun c s tail a a' hs ha => ?_) s
  obtain ⟨r, -, heq⟩ := Option.map_eq_some_iff.1 hs
  obtain ⟨htaken, -⟩ := Hit.mk.inj heq
  rw [List.append_assoc, SelfClosingIframe.opening_eq, List.cons_append]
    at htaken
  obtain ⟨rfl, -⟩ := List.cons.inj htaken
  obtain ⟨rest, hold, hnew⟩ := SelfClosingIframe.expanded_of_trimEnd ha
  dsimp only
  rw [hold, hnew]
  exact Scanner.replacesAlike_crlf '<' (some rest)

end ComponentMarkdown
