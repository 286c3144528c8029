/-
What each rule takes out of a text and what it puts there instead, so that
a statement about texts has to be checked for these pairs alone
(`follows_apply_braceAttributes` and its fellows).

The callouts need a look inside their tags. A container is written from
the attributes of the tag, and where a class is merged, these are the
attributes before and behind the class attribute, whose value moves to the
front (`written_of_static`).
-/
import ComponentMarkdown.Proofs.Rule.BraceAttributes
import ComponentMarkdown.Proofs.Rule.Callouts
import ComponentMarkdown.Proofs.Rule.ClassAttribute
import ComponentMarkdown.Proofs.Rule.IframeClosing
import ComponentMarkdown.Proofs.Rule.LoweredNames
import ComponentMarkdown.Proofs.Splice.Composition

namespace ComponentMarkdown

open Markup

variable {R : Nat → Text → Text → Prop}

-- ======================================================= inside tags

/-- What reads outside quoted values is followed if its readings are. -/
theorem Composes.replace_of_passesQuoted (hR : Composes R) {α : Type}
    {sc : Scanner (Option α)} {scan : Text → Option (Hit α)}
    (hscan : PassesQuoted sc scan) (new? : Option α → Option Text)
    (hnone : new? none = none)
    (h : ∀ r hit, scan r = some hit → ∀ new, new? (some hit.value) = some new →
      R 1 hit.taken new) (s : Text) :
    (sc.replace (fun hit => new? hit.value) s).Follows R s := by
  refine hR.replace sc fun hit hmem new hnew => ?_
  obtain ⟨r, -, hr⟩ := (Scanner.mem_hits_iff _).1 hmem
  obtain ⟨taken, value⟩ := hit
  cases value with
  | none =>
    dsimp only at hnew
    rw [hnone] at hnew
    cases hnew
  | some v => exact h r ⟨taken, v⟩ (hscan.scan_of_some hr) new hnew

theorem BraceAttribute.written_split (a : BraceAttribute) :
    a.written = a.lead :: (a.name ++ ['=', '{'] ++ a.value) ++ ['}'] := by
  simp [written]

/-- The rule keeps a relation that each well-formed attribute and its template
keep. -/
theorem follows_apply_braceAttributes (hR : Composes R)
    (h : ∀ a : BraceAttribute, a.WellFormed → ∀ new,
      a.template? = some new → R 1 a.written new) (s : Text) :
    (Rule.braceAttributes.apply s).Follows R s := by
  refine hR.editOpeningTags fun tag => ?_
  refine hR.replace_of_passesQuoted BraceAttribute.passesQuoted_scanner
    (·.bind BraceAttribute.template?) rfl (fun r hit hread new hnew => ?_) tag
  obtain ⟨a, ha, rfl⟩ := Option.map_eq_some_iff.1 hread
  exact h a (BraceAttribute.wellFormed_of_ofText? ha) new hnew

/-- The rule keeps a relation that each known name and its lowered form keep.
-/
theorem follows_apply_attributeCasing (hR : Composes R)
    (h : ∀ m : MixedCaseName,
      (∃ c, isBlank c = true ∧ (m.lead = [c] ∨ m.lead = [c, ':'])) →
      m.name ∈ MixedCaseName.known → R 1 (m.lead ++ m.name) m.lowered)
    (s : Text) : (Rule.attributeCasing.apply s).Follows R s := by
  refine hR.editOpeningTags fun tag => ?_
  refine hR.replace_of_passesQuoted MixedCaseName.passesQuoted_scanner
    (·.map MixedCaseName.lowered) rfl (fun r hit hread new hnew => ?_) tag
  obtain ⟨m, hm, rfl⟩ := Option.map_eq_some_iff.1 hread
  cases hnew
  obtain ⟨c, -, hc, hlead, hname, -⟩ := MixedCaseName.ofText?_spec hm
  exact h m ⟨c, hc, hlead⟩ hname

-- =========================================================== iframes

/-- The rule keeps a relation that each self-closing iframe and its expanded
form keep. -/
theorem follows_apply_iframeClosing (hR : Composes R)
    (h : ∀ attributes blanks, AttributeText attributes →
      (∀ c ∈ blanks, isBlank c = true) →
      R 1 (SelfClosingIframe.opening ++ attributes ++ (blanks ++ ['/', '>']))
        (SelfClosingIframe.expanded attributes)) (s : Text) :
    (Rule.iframeClosing.apply s).Follows R s := by
  refine hR.replace SelfClosingIframe.scanner fun hit hmem new hnew => ?_
  cases hnew
  obtain ⟨r, -, hscan⟩ := (Scanner.mem_hits_iff _).1 hmem
  obtain ⟨⟨attributes, e⟩, hread, rfl⟩ := Option.map_eq_some_iff.1 hscan
  unfold SelfClosingIframe.ofText? at hread
  split at hread
  · obtain ⟨htext, -, rest, -, hstop⟩ := attributeText_of_attributes? hread
    obtain ⟨t, ht, rfl⟩ := Option.map_eq_some_iff.1 hstop
    obtain ⟨blanks, hblanks, rfl⟩ := selfClose?_written ht
    exact h attributes blanks htext hblanks
  · cases hread

-- ======================================================= callout tags

namespace CalloutTag

/-- Whether the characters end the tag. -/
def Ends (tag : CalloutTag) (ending : Text) : Prop :=
  tag.selfClosing = false ∧ ending = ['>']
    ∨ tag.selfClosing = true ∧ ∃ blanks, (∀ c ∈ blanks, isBlank c = true)
      ∧ ending = blanks ++ ['/', '>']

/-- The tag as it stands in a text. -/
def written (tag : CalloutTag) (ending : Text) : Text :=
  (if tag.closing then ['<', '/'] else ['<']) ++ tag.kind.tagName
    ++ tag.attributes ++ ending

/-- The end of a tag is an angle bracket, or blanks and a slash before it. -/
theorem ends_of_end? {s : Text} {h : Hit Bool} (hs : end? s = some h) :
    h.value = false ∧ h.taken = ['>']
      ∨ h.value = true ∧ ∃ blanks, (∀ c ∈ blanks, isBlank c = true)
        ∧ h.taken = blanks ++ ['/', '>'] := by
  unfold end? at hs
  split at hs
  · cases hs
    exact Or.inl ⟨rfl, rfl⟩
  · obtain ⟨t, ht, rfl⟩ := Option.map_eq_some_iff.1 hs
    exact Or.inr ⟨rfl, selfClose?_written ht⟩

/-- What is read behind an opening is the written form of a callout tag. -/
theorem read?_written {opening s : Text} {closing : Bool}
    {h : Hit CalloutTag} (hs : read? opening closing s = some h) :
    h.value.closing = closing ∧ AttributeText h.value.attributes
      ∧ ∃ ending, h.value.Ends ending
        ∧ h.taken = opening ++ h.value.kind.tagName ++ h.value.attributes
          ++ ending := by
  obtain ⟨kind, -, hs⟩ := Option.bind_eq_some_iff.1 hs
  obtain ⟨⟨a, e⟩, hr, rfl⟩ := Option.map_eq_some_iff.1 hs
  obtain ⟨ha, -, r, -, hstop⟩ := attributeText_of_attributes? hr
  exact ⟨rfl, ha, e.taken, ends_of_end? hstop, rfl⟩

/-- What is read as a tag is one, as it stands in the text. -/
theorem scan_written {s : Text} {h : Hit CalloutTag}
    (hs : scanner.scan s = some h) :
    AttributeText h.value.attributes
      ∧ ∃ ending, h.value.Ends ending ∧ h.taken = h.value.written ending := by
  unfold written
  change ofText? s = some h at hs
  unfold ofText? at hs
  split at hs
  · obtain ⟨hclosing, ha, ending, hend, htaken⟩ := read?_written hs
    rw [hclosing]
    exact ⟨ha, ending, hend, htaken⟩
  · obtain ⟨hclosing, ha, ending, hend, htaken⟩ := read?_written hs
    rw [hclosing]
    exact ⟨ha, ending, hend, htaken⟩
  · cases hs

end CalloutTag

/-- The rule keeps a relation that each callout tag and what it becomes keep.
-/
theorem follows_apply_callouts (hR : Composes R) {s : Text}
    (h : ∀ tag ∈ calloutTagsOf s, AttributeText tag.attributes →
      ∀ ending, tag.Ends ending → ∀ opened new,
      (tag.convert? opened).1 = some new → R 1 (tag.written ending) new) :
    (Rule.callouts.apply s).Follows R s := by
  show (editOutsideCode (fun gap opened =>
    CalloutTag.scanner.spliceFrom calloutEdit opened gap) [] s).1.Follows R s
  refine hR.editOutsideCode (fun gap hgap opened => ?_) []
  refine hR.spliceFrom CalloutTag.scanner (fun hit hmem opened hcount => ?_) _
  obtain ⟨r, -, hscan⟩ := (Scanner.mem_hits_iff _).1 hmem
  obtain ⟨ha, ending, hend, htaken⟩ := CalloutTag.scan_written hscan
  have htag : hit.value ∈ calloutTagsOf s :=
    List.mem_flatMap.2 ⟨gap, hgap, List.mem_map_of_mem hmem⟩
  unfold calloutEdit at hcount ⊢
  cases hnew : (hit.value.convert? opened).1 with
  | none =>
    rw [hnew] at hcount
    exact absurd rfl hcount
  | some new =>
    rw [htaken]
    exact h hit.value htag ha ending hend opened new hnew

-- ========================================================= containers

/-- What classes add to those of a container: a blank, and themselves
trimmed, unless there is nothing to add. -/
def addedClasses (classes : Text) : Text :=
  match classes.trim with
  | [] => []
  | more => ' ' :: more

/-- The opening tag of a container, with the classes merged into its
own. -/
def CalloutKind.container (k : CalloutKind) (classes others : Text) : Text :=
  "<div class=\"callout ".toList ++ k.className ++ addedClasses classes
    ++ '"' :: others ++ ['>']

namespace CalloutTag

/-- What a container is written from: the attributes of the tag, or their
class and the others. -/
def Merges (attributes classes others : Text) : Prop :=
  classes = [] ∧ others = attributes
    ∨ ClassAttribute.ofAttributes attributes = .static classes others

/-- A container takes its classes and its other attributes from the tag. -/
theorem container?_eq_some {tag : CalloutTag} {new : Text}
    (h : tag.container? = some new) :
    ∃ classes others, Merges tag.attributes.trimEnd classes others
      ∧ new = tag.kind.container classes others := by
  unfold container? at h
  dsimp only at h
  split at h
  · cases h
    exact ⟨[], tag.attributes.trimEnd, Or.inl ⟨rfl, rfl⟩, rfl⟩
  · rename_i classes others hstatic
    cases h
    exact ⟨classes, others, Or.inr hstatic, rfl⟩
  · cases h

/-- A closing tag that is converted has only blanks for attributes, and
gives way to the end of a container; an opening tag gives way to a
container, which is closed at once if the tag closes itself. -/
theorem convert?_eq_some {tag : CalloutTag} {opened : OpenCallouts}
    {new : Text} (h : (tag.convert? opened).1 = some new) :
    tag.closing = true ∧ tag.attributes.trimEnd = []
        ∧ tag.selfClosing = false ∧ new = containerEnd
      ∨ tag.closing = false ∧ ∃ container, tag.container? = some container
        ∧ new = container ++ if tag.selfClosing then containerEnd else [] := by
  cases hclosing : tag.closing with
  | true =>
    rw [convert?_of_closing hclosing] at h
    left
    split at h
    · rename_i hplain
      rw [Bool.and_eq_true, List.isEmpty_iff, Bool.not_eq_true'] at hplain
      refine ⟨rfl, hplain.1, hplain.2, ?_⟩
      split at h
      · cases h
      · cases h
        rfl
    · cases h
  | false =>
    rw [convert?_of_opening hclosing] at h
    obtain ⟨container, hcontainer, rfl⟩ := Option.map_eq_some_iff.1 h
    exact Or.inr ⟨rfl, container, hcontainer, rfl⟩

end CalloutTag

-- ===================================================== merged classes

namespace ClassUse

/-- Whether a text is a class attribute, the blank before it included, that
gives some classes: the bare name, or the name and a quoted value. -/
def Writes (classes use : Text) : Prop :=
  ∃ c value, isBlank c = true ∧ use = c :: "class".toList ++ value
    ∧ (classes = [] ∧ value = []
      ∨ ∃ lead q, (∀ d ∈ lead, isBlank d = true ∨ d = '=')
        ∧ isQuote q = true ∧ value = lead ++ q :: (classes ++ [q]))

/-- What stands between the name of a class attribute and its value. -/
theorem blank_or_equals {s rest : Text}
    (d : Char) (hd : d ∈ s.takeWhile isBlank ++ '=' :: rest.takeWhile isBlank) :
    isBlank d = true ∨ d = '=' := by
  rcases List.mem_append.1 hd with hd | hd
  · exact Or.inl (List.all_eq_true.1 List.all_takeWhile d hd)
  · rcases List.mem_cons.1 hd with rfl | hd
    · exact Or.inr rfl
    · exact Or.inl (List.all_eq_true.1 List.all_takeWhile d hd)

/-- A value of a class is in quotes, or an expression. -/
theorem value_written {s : Text} {h : Hit ClassValue}
    (hs : ClassValue.ofText? s = some h) :
    (∃ lead q classes, (∀ d ∈ lead, isBlank d = true ∨ d = '=')
      ∧ isQuote q = true ∧ h.taken = lead ++ q :: (classes ++ [q])
      ∧ (h.value = .doubleQuoted classes ∨ h.value = .singleQuoted classes))
    ∨ h.value = .expression := by
  unfold ClassValue.ofText? at hs
  split at hs
  · dsimp only at hs
    split at hs
    · obtain ⟨t, ht, rfl⟩ := Option.map_eq_some_iff.1 hs
      obtain ⟨inner, rfl, -⟩ := through?_written ht
      refine Or.inl ⟨_, '"', inner, blank_or_equals, by decide, rfl, ?_⟩
      exact Or.inl (by rw [List.dropLast_concat])
    · obtain ⟨t, ht, rfl⟩ := Option.map_eq_some_iff.1 hs
      obtain ⟨inner, rfl, -⟩ := through?_written ht
      refine Or.inl ⟨_, '\'', inner, blank_or_equals, by decide, rfl, ?_⟩
      exact Or.inr (by rw [List.dropLast_concat])
    · cases hs
      exact Or.inr rfl
    · cases hs
  · cases hs

/-- The only spelling that does not bind the class. -/
theorem nameOf?_unbound {s : Text} {h : Hit Bool}
    (hs : nameOf? s = some h) (hvalue : h.value = false) :
    h.taken = "class".toList := by
  obtain ⟨p, hp, rfl⟩ := Option.map_eq_some_iff.1 hs
  have hall : ∀ p ∈ spellings, p.2 = false → p.1 = "class".toList := by decide
  exact hall p (List.mem_of_find?_eq_some hp) hvalue

/-- A class that can be merged is written with its classes. -/
theorem writes_of_static? {s : Text} {h : Hit ClassUse} {classes : Text}
    (hs : ofText? s = some h) (hstatic : h.value.static? = some classes) :
    Writes classes h.taken := by
  cases s with
  | nil => cases hs
  | cons c rest =>
    rw [ofText?] at hs
    unfold static? at hstatic
    split at hs
    · rename_i hc
      split at hs
      · cases hs
      · rename_i name hname
        dsimp only at hs
        split at hs
        · rename_i v hv
          cases hs
          split at hstatic
          · cases hstatic
          · rename_i hbound
            rw [nameOf?_unbound hname (Bool.eq_false_iff.2 hbound)]
            refine ⟨c, v.taken, hc, rfl, Or.inr ?_⟩
            rcases value_written hv with
              ⟨lead, q, inner, hlead, hq, htaken, hvalue⟩ | hvalue
            · refine ⟨lead, q, hlead, hq, ?_⟩
              rcases hvalue with hvalue | hvalue
              · rw [hvalue] at hstatic
                cases hstatic
                exact htaken
              · rw [hvalue] at hstatic
                dsimp only at hstatic
                split at hstatic
                · cases hstatic
                · cases hstatic
                  exact htaken
            · rw [hvalue] at hstatic
              cases hstatic
        · split at hs
          · cases hs
            split at hstatic
            · cases hstatic
            · rename_i hbound
              rw [nameOf?_unbound hname (Bool.eq_false_iff.2 hbound)]
              cases hstatic
              exact ⟨c, [], hc, by rw [List.append_nil], Or.inl ⟨rfl, rfl⟩⟩
          · cases hs
    · cases hs

end ClassUse

namespace ClassAttribute

theorem filter_of_use?_none {pieces : List (Piece (Option ClassUse))}
    (h : ∀ p ∈ pieces, use? p = none) :
    pieces.filter (fun p => (use? p).isNone) = pieces :=
  List.filter_eq_self.2 fun p hp => by rw [h p hp]; rfl

/-- A piece that is a class attribute was read as one. -/
theorem ofText?_of_use? {attributes : Text}
    {p : Piece (Option ClassUse)} {u : ClassUse}
    (hmem : p ∈ ClassUse.scanner.pieces attributes) (hp : use? p = some u) :
    ∃ r h, ClassUse.ofText? r = some h ∧ h.value = u ∧ p.text = h.taken := by
  cases p with
  | char c => cases hp
  | hit g =>
    have hvalue : g.value = some u :=
      Option.some.inj (Option.join_eq_some_iff.1 hp)
    have hhit : g ∈ ClassUse.scanner.hits attributes :=
      List.mem_filterMap.2 ⟨.hit g, hmem, rfl⟩
    obtain ⟨r, -, hscan⟩ := (Scanner.mem_hits_iff _).1 hhit
    obtain ⟨t, v⟩ := g
    cases hvalue
    exact ⟨r, _, ClassUse.passesQuoted_scanner.scan_of_some hscan, rfl, rfl⟩

/-- A class that can be merged stands in the attributes once, and the
other attributes are what precedes and what follows it. -/
theorem written_of_static {attributes classes others : Text}
    (h : ofAttributes attributes = .static classes others) :
    ∃ before use after, attributes = before ++ use ++ after
      ∧ others = before ++ after ∧ ClassUse.Writes classes use := by
  unfold ofAttributes at h
  dsimp only at h
  split at h
  · cases h
  · rename_i u huses
    split at h
    · rename_i classes' hstatic
      cases h
      obtain ⟨before, p, after, hpieces, hbefore, hp, hafter⟩ :=
        List.filterMap_eq_cons_iff.1 huses
      rw [List.filterMap_eq_nil_iff] at hafter
      have hflatten := ClassUse.scanner.pieces_flatten attributes
      rw [hpieces, List.map_append, List.map_cons, List.flatten_append,
        List.flatten_cons, ← List.append_assoc] at hflatten
      refine ⟨_, p.text, _, hflatten.symm, ?_, ?_⟩
      · have hnot : ¬ (fun p => (use? p).isNone) p = true := by simp [hp]
        rw [hpieces, List.filter_append,
          List.filter_cons_of_neg (p := fun p => (use? p).isNone) hnot,
          filter_of_use?_none hbefore, filter_of_use?_none hafter,
          List.flatMap_append, List.flatMap_def, List.flatMap_def]
      · have hmem : p ∈ ClassUse.scanner.pieces attributes := by
          rw [hpieces]
          simp
        obtain ⟨r, k, hk, rfl, htext⟩ := ofText?_of_use? hmem hp
        rw [htext]
        exact ClassUse.writes_of_static? hk hstatic
    · cases h
  · cases h

end ClassAttribute

end ComponentMarkdown
