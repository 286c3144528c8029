/-
Callouts whatever the line ends. With returns before the line feeds of a
text, the same tags are found at the same places, and each becomes the same
container or end of one, with returns before its line feeds
(`alike_apply_callouts`).

A class attribute that starts a line is the exception. It begins with the
line feed, so the return in front belongs to what precedes it. Merging the
class takes the attribute away and leaves the return where it is
(`ofAttributes_crlf`), without a line feed behind it.
-/
import ComponentMarkdown.Proofs.Markup.LineEnds
import ComponentMarkdown.Proofs.Rule.Callouts
import ComponentMarkdown.Proofs.Rule.ClassAttribute
import ComponentMarkdown.Proofs.Rule.Substitutions
import ComponentMarkdown.Proofs.Rule.TagNames

namespace ComponentMarkdown

open Markup Text

-- ==================================================== the class attribute

namespace ClassValue

/-- The value with a return before every line feed. -/
def withReturns : ClassValue → ClassValue
  | .doubleQuoted v => .doubleQuoted (crlf v)
  | .singleQuoted v => .singleQuoted (crlf v)
  | v => v

theorem crlf_through? {q : Char} (hq : isQuote q = true) {s t : Text}
    (h : through? q s = some t) : (crlf t).dropLast = crlf t.dropLast := by
  obtain ⟨inner, rfl, -⟩ := through?_written h
  have hcopy : crlf (inner ++ [q]) = crlf inner ++ [q] := by
    rw [crlf_append, crlf_char (ne_lineEnd hq (by decide) (by decide)).2]
    rfl
  rw [hcopy, List.dropLast_concat, List.dropLast_concat]

/-- A quoted value is copied with its quotes. -/
theorem quoted_crlf {q : Char} (hq : isQuote q = true) (lead s : Text)
    {value : Text → ClassValue}
    (hvalue : ∀ v, (value v).withReturns = value (crlf v)) :
    ((through? q (crlf s)).map fun t =>
        (⟨crlf lead ++ q :: t, value t.dropLast⟩ : Hit ClassValue))
      = ((through? q s).map fun t =>
          (⟨lead ++ q :: t, value t.dropLast⟩ : Hit ClassValue)).map fun h =>
        ⟨crlf h.taken, h.value.withReturns⟩ := by
  have hends := ne_lineEnd hq (by decide) (by decide)
  rw [through?_crlf hends]
  cases ht : through? q s with
  | none => rfl
  | some t =>
    dsimp only [Option.map_some]
    rw [crlf_through? hq ht, hvalue, crlf_append, crlf_char hends.2]

theorem behindEquals?_crlf (lead s : Text) :
    behindEquals? (crlf lead) (crlf s)
      = (behindEquals? lead s).map fun h =>
        ⟨crlf h.taken, h.value.withReturns⟩ := by
  cases s with
  | nil => rfl
  | cons c s =>
    by_cases hfeed : c = '\n'
    · subst hfeed
      rw [crlf_feed, behindEquals?_of_ne (by decide),
        behindEquals?_of_ne (by decide)]
      rfl
    · rw [crlf_char hfeed]
      by_cases hdouble : c = '"'
      · subst hdouble
        exact quoted_crlf (by decide) lead s fun _ => rfl
      · by_cases hsingle : c = '\''
        · subst hsingle
          exact quoted_crlf (by decide) lead s fun _ => rfl
        · by_cases hbrace : c = '{'
          · subst hbrace
            exact congrArg (fun t => some (Hit.mk t expression))
              (crlf_append lead ['{']).symm
          · have hne := And.intro hdouble (And.intro hsingle hbrace)
            rw [behindEquals?_of_ne hne, behindEquals?_of_ne hne]
            rfl

theorem ofText?_crlf (s : Text) :
    ofText? (crlf s)
      = (ofText? s).map fun h => ⟨crlf h.taken, h.value.withReturns⟩ := by
  rw [ofText?_eq, ofText?_eq, dropWhile_crlf rfl, takeWhile_crlf rfl]
  generalize s.dropWhile isBlank = behind
  generalize s.takeWhile isBlank = front
  split
  · rename_i rest heq
    obtain ⟨rest', rfl, rfl⟩ := exists_of_crlf_eq_cons (by decide) heq
    rw [dropWhile_crlf rfl, takeWhile_crlf rfl]
    have hlead : crlf front ++ '=' :: crlf (rest'.takeWhile isBlank)
        = crlf (front ++ '=' :: rest'.takeWhile isBlank) := by
      rw [crlf_append]
      rfl
    rw [hlead, behindEquals?_crlf]
    rfl
  · rename_i hnot
    split
    · rename_i rest
      exact absurd rfl (hnot (crlf rest))
    · rfl

end ClassValue

namespace ClassUse

/-- The class attribute with a return before every line feed. -/
def withReturns (u : ClassUse) : ClassUse := ⟨u.bound, u.value.withReturns⟩

theorem nameOf?_crlf (s : Text) : nameOf? (crlf s) = nameOf? s := by
  have hplain : ∀ p ∈ spellings, '\n' ∉ p.1 ∧ '\r' ∉ p.1 := by decide
  unfold nameOf?
  rw [← List.head?_filter, ← List.head?_filter]
  refine congrArg (fun l => (List.head? l).map _)
    (List.filter_congr fun p hp => ?_)
  exact isPrefixOf_crlf (hplain p hp).1 (hplain p hp).2 s

theorem line_not_mem_name {s : Text} {name : Hit Bool}
    (h : nameOf? s = some name) : '\n' ∉ name.taken := by
  obtain ⟨p, hp, rfl⟩ := Option.map_eq_some_iff.1 h
  have hplain : ∀ p ∈ spellings, '\n' ∉ p.1 := by decide
  exact hplain p (List.mem_of_find?_eq_some hp)

theorem endsBefore_crlf (s : Text) : endsBefore (crlf s) = endsBefore s := by
  cases s with
  | nil => rfl
  | cons c s =>
    by_cases hc : c = '\n'
    · subst hc
      rfl
    · rw [crlf_char hc]
      rfl

theorem ofText?_crlf (c : Char) (s : Text) :
    ofText? (c :: crlf s)
      = (ofText? (c :: s)).map fun h =>
        ⟨c :: crlf h.taken.tail, h.value.withReturns⟩ := by
  rw [ofText?, ofText?, nameOf?_crlf]
  split
  · cases hname : nameOf? s with
    | none => rfl
    | some name =>
      have hfeed := line_not_mem_name hname
      obtain ⟨behind, rfl⟩ := nameOf?_isPrefix hname
      have hdrop : (crlf (name.taken ++ behind)).drop name.taken.length
          = crlf behind := by
        rw [crlf_append, crlf_of_not_mem hfeed, List.drop_left]
      dsimp only
      rw [hdrop, List.drop_left, ClassValue.ofText?_crlf, endsBefore_crlf]
      cases ClassValue.ofText? behind with
      | some v =>
        have hcopy : crlf (name.taken ++ v.taken)
            = name.taken ++ crlf v.taken := by
          rw [crlf_append, crlf_of_not_mem hfeed]
        exact congrArg (fun t => some (Hit.mk (c :: t)
          (ClassUse.mk name.value v.value.withReturns))) hcopy.symm
      | none =>
        dsimp only [Option.map_none]
        split
        · exact congrArg (fun t => some (Hit.mk (c :: t)
            (ClassUse.mk name.value .bare))) (crlf_of_not_mem hfeed).symm
        · rfl
  · rfl

theorem seesThrough_scanner :
    scanner.SeesThrough (Option.Rel fun u u' => u' = u.withReturns) := by
  refine seesThrough_of_passesQuoted passesQuoted_scanner (fun t => ?_)
    (fun {c t} h => ?_) (fun {c t tail u} h => ?_)
  · rfl
  · rw [ofText?_crlf, h]
    rfl
  · refine ⟨u.withReturns, rfl, ?_⟩
    rw [ofText?_crlf, h]
    rfl

theorem static?_withReturns (u : ClassUse) :
    u.withReturns.static? = u.static?.map crlf := by
  obtain ⟨bound, value⟩ := u
  cases bound with
  | true => rfl
  | false =>
    cases value with
    | bare => rfl
    | doubleQuoted v => rfl
    | singleQuoted v =>
      show (if '"' ∈ crlf v then none else some (crlf v))
        = (if '"' ∈ v then none else some v).map crlf
      by_cases hquote : '"' ∈ v
      · rw [if_pos hquote, if_pos ((mem_crlf_iff (by decide)).2 hquote)]
        rfl
      · rw [if_neg hquote,
          if_neg (fun h => hquote ((mem_crlf_iff (by decide)).1 h))]
        rfl
    | expression => rfl

end ClassUse

-- ================================================== among the attributes

namespace ClassAttribute

/-- Whether a piece of the attributes is a class attribute that starts a
line. -/
def startsLine (p : Piece (Option ClassUse)) : Bool :=
  (use? p).isSome && p.text.head? == some '\n'

/-- The attributes that are none of the class. -/
def others (ps : List (Piece (Option ClassUse))) : Text :=
  (ps.filter fun p => (use? p).isNone).flatMap Piece.text

theorem others_chars (t : Text) (ps : List (Piece (Option ClassUse))) :
    others (t.map .char ++ ps) = t ++ others ps := by
  induction t with
  | nil => rfl
  | cons c t ih =>
    exact congrArg (c :: ·) ih

theorem uses_chars (t : Text) (ps : List (Piece (Option ClassUse))) :
    (t.map Piece.char ++ ps).filterMap use? = ps.filterMap use? := by
  induction t with
  | nil => rfl
  | cons c t ih => exact ih

open Scanner in
/-- In alike pieces the class attributes are alike, and so are the others,
but for the returns in front of class attributes that start a line. -/
theorem alike_pieces {ps ps' : List (Piece (Option ClassUse))}
    (h : PiecesAlike ClassUse.scanner
      (Option.Rel fun u u' => u' = u.withReturns) ps ps') :
    ps'.filterMap use? = (ps.filterMap use?).map ClassUse.withReturns
      ∧ ReturnsUpTo (ps.countP startsLine) (others ps) (others ps') := by
  induction h with
  | nil => exact ⟨rfl, returnsUpTo_crlf []⟩
  | char c h ih =>
    obtain ⟨huses, hothers⟩ := ih
    rw [uses_chars, others_chars]
    exact ⟨huses, hothers.cons c⟩
  | @hit c s tail v v' ps ps' hs hv h ih =>
    obtain ⟨huses, hothers⟩ := ih
    rw [uses_chars, others_chars]
    cases hv with
    | none =>
      refine ⟨huses, ?_⟩
      have htail := ((returnsUpTo_crlf tail).append hothers).cons c
      rw [Nat.zero_add] at htail
      exact htail
    | some hv =>
      subst hv
      rename_i u
      refine ⟨congrArg (u.withReturns :: ·) huses, ?_⟩
      have hcount : (Piece.hit ⟨c :: tail, some u⟩ :: ps).countP startsLine
          = (if c = '\n' then 1 else 0) + ps.countP startsLine := by
        rw [List.countP_cons, Nat.add_comm]
        by_cases hc : c = '\n'
        · subst hc
          rfl
        · simp [startsLine, use?, Piece.value?, Piece.text, hc]
      rw [hcount]
      show ReturnsUpTo _ (others ps) (returnFor c ++ others ps')
      unfold returnFor
      split
      · exact returnsUpTo_return.append hothers
      · rw [Nat.zero_add]
        exact hothers

/-- Whether attributes have a class that can be merged and starts a line. -/
def mergesLineStart (attributes : Text) : Bool :=
  match ofAttributes attributes with
  | .static _ _ => (ClassUse.scanner.pieces attributes).any startsLine
  | _ => false

/-- The same found about a class, with returns before the line feeds, and so
many returns more among the other attributes. -/
inductive FoundAlike : Nat → ClassAttribute → ClassAttribute → Prop
  | absent : FoundAlike 0 .absent .absent
  | static {n : Nat} (classes : Text) {others others' : Text}
      (h : ReturnsUpTo n others others') :
      FoundAlike n (.static classes others) (.static (crlf classes) others')
  | unmergeable : FoundAlike 0 .unmergeable .unmergeable

theorem ofAttributes_eq (attributes : Text) :
    ofAttributes attributes
      = match (ClassUse.scanner.pieces attributes).filterMap use? with
        | [] => .absent
        | [u] =>
          match u.static? with
          | some classes =>
            .static classes (others (ClassUse.scanner.pieces attributes))
          | none => .unmergeable
        | _ => .unmergeable := rfl

/-- Of a single class attribute, one starts a line or none does. -/
theorem countP_startsLine {ps : List (Piece (Option ClassUse))} {u : ClassUse}
    (h : ps.filterMap use? = [u]) :
    ps.countP startsLine = if ps.any startsLine then 1 else 0 := by
  have hle : ps.countP startsLine ≤ ps.countP fun p => (use? p).isSome :=
    List.countP_mono_left fun p _ hp => (Bool.and_eq_true_iff.1 hp).1
  rw [← List.length_filterMap_eq_countP, h] at hle
  split
  · rename_i hany
    obtain ⟨p, hp, hstarts⟩ := List.any_eq_true.1 hany
    have hpos := List.countP_pos_iff.2 ⟨p, hp, hstarts⟩
    exact Nat.le_antisymm hle hpos
  · rename_i hnone
    rw [List.any_eq_true] at hnone
    exact List.countP_eq_zero.2 fun p hp hstarts => hnone ⟨p, hp, hstarts⟩

/-- What the attributes of a tag say about its class does not depend on the
line ends. The other attributes keep the return in front of a class that
starts a line. -/
theorem ofAttributes_crlf (attributes : Text) :
    FoundAlike (if mergesLineStart attributes then 1 else 0)
      (ofAttributes attributes) (ofAttributes (crlf attributes)) := by
  obtain ⟨huses, hothers⟩ :=
    alike_pieces (ClassUse.seesThrough_scanner.pieces attributes)
  have hfound := ofAttributes_eq attributes
  have hfound' := ofAttributes_eq (crlf attributes)
  rw [huses] at hfound'
  unfold mergesLineStart
  cases hhere : (ClassUse.scanner.pieces attributes).filterMap use? with
  | nil =>
    rw [hhere] at hfound hfound'
    rw [hfound, hfound']
    exact .absent
  | cons u more =>
    cases more with
    | nil =>
      rw [hhere] at hfound hfound'
      rw [List.map_cons, List.map_nil] at hfound'
      dsimp only at hfound hfound'
      rw [ClassUse.static?_withReturns] at hfound'
      cases hstatic : u.static? with
      | none =>
        rw [hstatic] at hfound hfound'
        rw [hfound, hfound']
        exact .unmergeable
      | some classes =>
        rw [hstatic] at hfound hfound'
        rw [hfound, hfound', ← countP_startsLine hhere]
        exact .static classes hothers
    | cons v more =>
      rw [hhere] at hfound hfound'
      rw [hfound, hfound']
      exact .unmergeable

end ClassAttribute

-- =========================================================== the tags

namespace CalloutTag

theorem end?_of_ne {c : Char} (hc : c ≠ '>') (s : Text) : end? (c :: s)
      = (selfClose? (c :: s)).map fun t => ⟨t, true⟩ := by
  unfold end?
  split
  · rename_i heq
    exact absurd (List.cons.inj heq).1 hc
  · rfl

theorem stopsAlike_end? : StopsAlike end? where
  nil := rfl
  crlf s := by
    cases s with
    | nil => rfl
    | cons c s =>
      by_cases hfeed : c = '\n'
      · subst hfeed
        rw [crlf_feed, end?_of_ne (by decide), end?_of_ne (by decide)]
        exact (stopsAlike_selfClose true).crlf ('\n' :: s)
      · have hcopy := (stopsAlike_selfClose true).crlf (c :: s)
        rw [crlf_char hfeed] at hcopy ⊢
        by_cases hc : c = '>'
        · subst hc
          rfl
        · rw [end?_of_ne hc, end?_of_ne hc]
          exact hcopy
  returns s := by
    rw [end?_of_ne (by decide), end?_of_ne (by decide)]
    exact (stopsAlike_selfClose true).returns s
  feed {s h} hs := by
    rw [end?_of_ne (by decide)] at hs
    obtain ⟨g, hg, rfl⟩ := (stopsAlike_selfClose true).feed hs
    refine ⟨g, ?_, rfl⟩
    cases s with
    | nil => cases hg
    | cons c s =>
      rw [end?_of_ne, hg]
      rintro rfl
      rw [selfClose?_of_ne (by decide) (by decide)] at hg
      cases hg

/-- Tags that are the same but for the blanks at the end of their
attributes, and the returns before line feeds. -/
structure Alike (tag tag' : CalloutTag) : Prop where
  closing : tag'.closing = tag.closing
  kind : tag'.kind = tag.kind
  attributes : tag'.attributes.trimEnd = crlf tag.attributes.trimEnd
  selfClosing : tag'.selfClosing = tag.selfClosing

theorem kind_crlf (s : Text) :
    CalloutKind.ofText? (crlf s) = CalloutKind.ofText? s := by
  have hplain (k : CalloutKind) : '\n' ∉ k.tagName ∧ '\r' ∉ k.tagName := by
    cases k <;> decide
  unfold CalloutKind.ofText?
  refine congrArg (CalloutKind.all.find? ·) (funext fun k => ?_)
  exact isPrefixOf_crlf (hplain k).1 (hplain k).2 s

theorem read?_crlf (opening : Text) (closing : Bool) (s : Text) :
    (read? opening closing s = none →
        read? opening closing (crlf s) = none)
      ∧ ∀ h, read? opening closing s = some h →
        ∃ behind, h.taken = opening ++ behind
          ∧ ∃ h', read? opening closing (crlf s) = some h'
            ∧ h'.taken = opening ++ crlf behind ∧ Alike h.value h'.value := by
  unfold read?
  rw [kind_crlf]
  cases hkind : CalloutKind.ofText? s with
  | none => exact ⟨fun _ => rfl, nofun⟩
  | some kind =>
    have hfeed : '\n' ∉ kind.tagName := by cases kind <;> decide
    obtain ⟨rest, rfl⟩ := CalloutKind.ofText?_isPrefix hkind
    have hdrop : (crlf (kind.tagName ++ rest)).drop kind.tagName.length
        = crlf rest := by
      rw [crlf_append, crlf_of_not_mem hfeed, List.drop_left]
    obtain ⟨hnone, hsome⟩ := attributes?_crlf stopsAlike_end? rest
    dsimp only [Option.bind_some]
    rw [hdrop, List.drop_left]
    refine ⟨fun h => ?_, fun h hread => ?_⟩
    · exact Option.map_eq_none_iff.2 (hnone (Option.map_eq_none_iff.1 h))
    · obtain ⟨r, hr, rfl⟩ := Option.map_eq_some_iff.1 hread
      obtain ⟨r', hr', halike⟩ := hsome r hr
      rw [hr']
      refine ⟨kind.tagName ++ (r.1 ++ r.2.taken), by simp, _, rfl, ?_,
        rfl, rfl, halike.trimEnd, halike.value⟩
      rw [crlf_append, crlf_of_not_mem hfeed, ← halike.taken]
      simp

theorem ofText?_crlf (s : Text) :
    (ofText? ('<' :: s) = none → ofText? ('<' :: crlf s) = none)
      ∧ ∀ h, ofText? ('<' :: s) = some h →
        ∃ behind, h.taken = '<' :: behind
          ∧ ∃ h', ofText? ('<' :: crlf s) = some h'
            ∧ h'.taken = '<' :: crlf behind ∧ Alike h.value h'.value := by
  by_cases hs : ∃ rest, s = '/' :: rest
  · obtain ⟨rest, rfl⟩ := hs
    rw [crlf_char (by decide)]
    obtain ⟨hnone, hsome⟩ := read?_crlf ['<', '/'] true rest
    refine ⟨hnone, fun h hread => ?_⟩
    obtain ⟨behind, htaken, h', hread', htaken', halike⟩ := hsome h hread
    refine ⟨'/' :: behind, htaken, h', hread', ?_, halike⟩
    rw [crlf_char (by decide)]
    exact htaken'
  · rw [not_exists] at hs
    have hcopy : ∀ rest, crlf s ≠ '/' :: rest := by
      intro rest heq
      obtain ⟨rest', hrest, -⟩ := exists_of_crlf_eq_cons (by decide) heq
      exact hs rest' hrest
    rw [ofText?_of_no_slash hs, ofText?_of_no_slash hcopy]
    exact read?_crlf ['<'] false s

theorem seesThrough_scanner : scanner.SeesThrough Alike := by
  refine ⟨fun t => rfl, fun {c t} h => ?_, fun {c t tail tag} h => ?_⟩
  · by_cases hc : c = '<'
    · subst hc
      exact (ofText?_crlf t).1 h
    · exact ofText?_of_ne hc _
  · by_cases hc : c = '<'
    · subst hc
      obtain ⟨behind, htaken, ⟨taken', tag'⟩, hread', rfl, halike⟩ :=
        (ofText?_crlf t).2 _ h
      obtain ⟨-, rfl⟩ := List.cons.inj htaken
      exact ⟨tag', halike, hread'⟩
    · have hnone : ofText? (c :: t) = none := ofText?_of_ne hc t
      change ofText? (c :: t) = _ at h
      rw [hnone] at h
      cases h

end CalloutTag

-- ========================================================= containers

theorem addedClasses_crlf (classes : Text) :
    addedClasses (crlf classes) = crlf (addedClasses classes) := by
  unfold addedClasses
  rw [trim_crlf]
  cases classes.trim with
  | nil => rfl
  | cons c more =>
    obtain ⟨d, more', hcons⟩ := List.exists_cons_of_ne_nil
      (fun h => List.cons_ne_nil c more (crlf_eq_nil_iff.1 h))
    rw [hcons]
    dsimp only
    rw [← hcons]
    rfl

/-- Containers differ as their other attributes do. -/
theorem CalloutKind.alike_container (k : CalloutKind) (classes : Text)
    {n : Nat} {others others' : Text} (h : ReturnsUpTo n others others') :
    ∃ new new', k.container classes others = '<' :: new
      ∧ k.container (crlf classes) others' = '<' :: new'
      ∧ ReturnsUpTo n new new' := by
  have hname : crlf ("div class=\"callout ".toList ++ k.className)
      = "div class=\"callout ".toList ++ k.className := by
    cases k <;> decide
  have hfront := returnsUpTo_crlf
    ("div class=\"callout ".toList ++ k.className ++ addedClasses classes
      ++ ['"'])
  rw [crlf_append, crlf_append, hname, ← addedClasses_crlf] at hfront
  have hall := (hfront.append h).append (returnsUpTo_crlf ['>'])
  rw [Nat.zero_add, Nat.add_zero] at hall
  have hsplit (classes others : Text) : k.container classes others
      = '<' :: ("div class=\"callout ".toList ++ k.className
        ++ addedClasses classes ++ ['"'] ++ others ++ ['>']) := by
    unfold container
    rw [show "<div class=\"callout ".toList
      = '<' :: "div class=\"callout ".toList from rfl]
    simp only [List.cons_append, List.append_assoc, List.nil_append]
  exact ⟨_, _, hsplit _ _, hsplit _ _, hall⟩

namespace CalloutTag

/-- Whether the tag opens a callout whose class is merged and starts a
line. -/
def mergesLineStart (tag : CalloutTag) : Bool :=
  !tag.closing && ClassAttribute.mergesLineStart tag.attributes.trimEnd

/-- How many returns stay where a class was taken away. -/
def returnsLeft (tag : CalloutTag) : Nat :=
  if tag.mergesLineStart then 1 else 0

theorem container?_eq (tag : CalloutTag) :
    tag.container?
      = match ClassAttribute.ofAttributes tag.attributes.trimEnd with
        | .absent => some (tag.kind.container [] tag.attributes.trimEnd)
        | .static classes others => some (tag.kind.container classes others)
        | .unmergeable => none := rfl

theorem container?_alike {tag tag' : CalloutTag} (h : tag.Alike tag') :
    Scanner.ReplacesAlike '<'
      (if ClassAttribute.mergesLineStart tag.attributes.trimEnd then 1 else 0)
      tag.container? tag'.container? := by
  have hfound := ClassAttribute.ofAttributes_crlf tag.attributes.trimEnd
  rw [container?_eq, container?_eq, h.kind, h.attributes]
  generalize (if ClassAttribute.mergesLineStart tag.attributes.trimEnd then 1
    else 0) = n at hfound
  generalize ClassAttribute.ofAttributes tag.attributes.trimEnd = found at hfound
  generalize ClassAttribute.ofAttributes (crlf tag.attributes.trimEnd) = found'
    at hfound
  cases hfound with
  | absent =>
    obtain ⟨new, new', hnew, hnew', htext⟩ :=
      tag.kind.alike_container [] (returnsUpTo_crlf tag.attributes.trimEnd)
    dsimp only
    rw [hnew]
    exact Or.inr ⟨new, new', rfl, congrArg some hnew', htext⟩
  | static classes hothers =>
    obtain ⟨new, new', hnew, hnew', htext⟩ :=
      tag.kind.alike_container classes hothers
    dsimp only
    rw [hnew, hnew']
    exact Or.inr ⟨new, new', rfl, rfl, htext⟩
  | unmergeable => exact Or.inl ⟨rfl, rfl, rfl⟩

/-- The end of a container has no line ends. -/
theorem alike_containerEnd {new? : Option Text}
    (h : new? = none ∨ new? = some containerEnd) :
    Scanner.ReplacesAlike '<' 0 new? new? := by
  rcases h with rfl | rfl
  · exact Or.inl ⟨rfl, rfl, rfl⟩
  · exact Scanner.replacesAlike_crlf '<' (some "/div>".toList)

theorem returnsLeft_of_closing {tag : CalloutTag} (h : tag.closing = true) :
    tag.returnsLeft = 0 := by
  unfold returnsLeft mergesLineStart
  rw [h]
  rfl

theorem returnsLeft_of_opening {tag : CalloutTag} (h : tag.closing = false) :
    tag.returnsLeft
      = if ClassAttribute.mergesLineStart tag.attributes.trimEnd then 1
        else 0 := by
  unfold returnsLeft mergesLineStart
  rw [h]
  rfl

/-- Alike tags become alike containers, and leave the same open. -/
theorem convert?_alike {tag tag' : CalloutTag} (h : tag.Alike tag')
    (opened : OpenCallouts) :
    (tag'.convert? opened).2 = (tag.convert? opened).2
      ∧ Scanner.ReplacesAlike '<' tag.returnsLeft (tag.convert? opened).1
        (tag'.convert? opened).1 := by
  unfold convert?
  rw [h.closing, h.kind, h.attributes, h.selfClosing, isEmpty_crlf]
  cases hclosing : tag.closing with
  | true =>
    rw [returnsLeft_of_closing hclosing, if_pos rfl, if_pos rfl]
    refine ⟨rfl, alike_containerEnd ?_⟩
    split
    · split
      · exact Or.inl rfl
      · exact Or.inr rfl
    · exact Or.inl rfl
  | false =>
    rw [returnsLeft_of_opening hclosing, if_neg Bool.false_ne_true,
      if_neg Bool.false_ne_true]
    have halike := container?_alike h
    cases tag.selfClosing with
    | true =>
      refine ⟨rfl, ?_⟩
      rcases halike with ⟨hnone, hnone', hzero⟩ |
        ⟨new, new', hsome, hsome', htext⟩
      · rw [hnone, hnone']
        exact Or.inl ⟨rfl, rfl, hzero⟩
      · rw [hsome, hsome']
        exact Or.inr ⟨_, _, rfl, rfl,
          htext.append (returnsUpTo_crlf containerEnd)⟩
    | false =>
      have hisSome : tag'.container?.isSome = tag.container?.isSome := by
        rcases halike with ⟨hnone, hnone', -⟩ | ⟨_, _, hsome, hsome', -⟩
        · rw [hnone, hnone']
        · rw [hsome, hsome']
          rfl
      refine ⟨?_, halike⟩
      show _ :: _ = _ :: _
      rw [hisSome]

theorem editsAlike_calloutEdit :
    scanner.EditsAlike Alike calloutEdit fun h => h.value.returnsLeft := by
  refine Scanner.editsAlike_substitution
    (f := fun (h : Hit CalloutTag) opened => h.value.convert? opened) ?_
  intro c s tail tag tag' opened hs halike
  have hhead : c = '<' := by
    refine Decidable.byContradiction fun hc => ?_
    obtain ⟨rest, rfl⟩ := scanner.taken_isPrefix hs
    have hnone : scanner.scan (c :: tail ++ rest) = none := ofText?_of_ne hc _
    rw [hnone] at hs
    cases hs
  subst hhead
  exact convert?_alike halike opened

end CalloutTag

-- ====================================================== the whole rule

section

variable {σ : Type} {edit : Text → σ → Edited × σ} {left : Text → Nat}

/-- Edits of gaps that are alike, one after the other. -/
theorem alike_editTail
    (h : ∀ gap st, (edit (crlf gap) st).2 = (edit gap st).2
      ∧ ((edit gap st).1).AlikeUpTo (left gap) (edit (crlf gap) st).1)
    (tail : List (Text × Text)) (st : σ) :
    ((CodeSplit.editTail edit tail st).1).AlikeUpTo
      ((tail.map fun p => left p.2).sum)
      (CodeSplit.editTail edit (tail.map fun p => (crlf p.1, crlf p.2)) st).1 := by
  induction tail generalizing st with
  | nil => exact ⟨rfl, returnsUpTo_crlf []⟩
  | cons p tail ih =>
    obtain ⟨span, gap⟩ := p
    obtain ⟨hst, hgap⟩ := h gap st
    have hrest := ih (edit gap st).2
    have hspan := (returnsUpTo_crlf span).append hgap.text
    rw [Nat.zero_add] at hspan
    rw [List.map_cons, List.map_cons, List.sum_cons, CodeSplit.editTail,
      CodeSplit.editTail]
    dsimp only
    rw [hst]
    refine ⟨?_, hspan.append hrest.text⟩
    dsimp only
    rw [hgap.count, hrest.count]

/-- An edit outside code spans leaves what it leaves in the gaps. -/
theorem alike_editOutsideCode
    (h : ∀ gap st, (edit (crlf gap) st).2 = (edit gap st).2
      ∧ ((edit gap st).1).AlikeUpTo (left gap) (edit (crlf gap) st).1)
    (hkept : KeepsUncounted edit) (st : σ) (s : Text) :
    ((editOutsideCode edit st s).1).AlikeUpTo
      ((CodeSplit.ofText s).gaps.map left).sum
      (editOutsideCode edit st (crlf s)).1 := by
  obtain ⟨hst, hhead⟩ := h (CodeSplit.ofText s).head st
  have htail := alike_editTail h (CodeSplit.ofText s).tail
    (edit (CodeSplit.ofText s).head st).2
  have hgaps : (((CodeSplit.ofText s).editGaps edit st).1).AlikeUpTo
      ((CodeSplit.ofText s).gaps.map left).sum
      ((CodeSplit.ofText s).withReturns.editGaps edit st).1 := by
    rw [CodeSplit.gaps, List.map_cons, List.sum_cons, List.map_map]
    unfold CodeSplit.editGaps CodeSplit.withReturns
    dsimp only
    rw [hst]
    refine ⟨?_, hhead.text.append htail.text⟩
    dsimp only
    rw [hhead.count, htail.count]
  rw [← CodeSplit.ofText_crlf] at hgaps
  refine ⟨?_, ?_⟩
  · rw [count_editOutsideCode, count_editOutsideCode, hgaps.count]
  · rw [text_editOutsideCode hkept, text_editOutsideCode hkept]
    exact hgaps.text

end

theorem sum_returnsLeft_flatMap (gaps : List Text) :
    ((gaps.flatMap fun gap => (CalloutTag.scanner.hits gap).map Hit.value).map
        CalloutTag.returnsLeft).sum
      = (gaps.map fun gap => ((CalloutTag.scanner.hits gap).map
        fun h => h.value.returnsLeft).sum).sum := by
  induction gaps with
  | nil => rfl
  | cons gap gaps ih =>
    rw [List.flatMap_cons, List.map_append, List.sum_append, ih, List.map_map]
    rfl

/-- The callouts of a text with returns before its line feeds: the same
counts, and the same text but for the returns in front of merged classes
that start a line. -/
theorem alike_apply_callouts (s : Text) :
    (Rule.callouts.apply s).AlikeUpTo
      ((calloutTagsOf s).map CalloutTag.returnsLeft).sum
      (Rule.callouts.apply (crlf s)) := by
  unfold calloutTagsOf
  rw [sum_returnsLeft_flatMap]
  show ((editOutsideCode convertCallouts [] s).1).AlikeUpTo _
    (editOutsideCode convertCallouts [] (crlf s)).1
  exact alike_editOutsideCode (fun gap opened =>
      CalloutTag.seesThrough_scanner.spliceFrom
        CalloutTag.editsAlike_calloutEdit gap opened)
    keepsUncounted_convertCallouts [] s

end ComponentMarkdown
