/-
The names of tags, as the rules read them that look for a tag by its name.
Such a rule looks for the letters of the name and then for attributes. Where
the name in the text goes on there are none, so a rule that reads a tag has
read its whole name (`CalloutTag.read?_name`,
`SelfClosingIframe.ofText?_name`).
-/
import ComponentMarkdown.Proofs.Markup.Attributes
import ComponentMarkdown.Proofs.Splice.Tags
import ComponentMarkdown.Rule.Callouts
import ComponentMarkdown.Rule.IframeClosing

namespace ComponentMarkdown

open Markup

/-- Whether letters and digits belong to a class of characters, and nothing
that can follow the name of a tag. -/
structure NameClass (f : Char → Bool) : Prop where
  alphanum : ∀ c, c.isAlphanum = true → f c = true
  visible : ∀ c, f c = true → isBlank c = false ∧ c ≠ '/' ∧ c ≠ '>'

section

variable {f : Char → Bool} (hf : NameClass f)

include hf

/-- A word of letters and digits is one of the class. -/
theorem NameClass.of_alphanum {t : Text}
    (ht : ∀ c ∈ t, c.isAlphanum = true) : ∀ c ∈ t, f c = true :=
  fun c hc => hf.alphanum c (ht c hc)

/-- Behind a name no further character of a name starts attributes. -/
theorem NameClass.attributes?_eq_none {β : Type}
    {stop : Text → Option (Hit β)} {v : β} (hstop : SeesEnds stop v)
    {d : Char} (hd : f d = true) (s : Text) :
    attributes? stop (d :: s) = none :=
  attributes?_of_visible hstop (hf.visible d hd).1 (hf.visible d hd).2 s

end

-- ============================================================ callouts

namespace CalloutKind

/-- Every kind is listed. -/
theorem mem_all (k : CalloutKind) : k ∈ all := by
  cases k <;> decide

/-- No name of a kind starts another. -/
theorem tagName_isPrefix {k k' : CalloutKind}
    (h : k.tagName <+: k'.tagName) : k = k' := by
  have hall : ∀ k ∈ all, ∀ k' ∈ all,
      k.tagName.isPrefixOf k'.tagName = true → k = k' := by decide
  exact hall k k.mem_all k' k'.mem_all (List.isPrefixOf_iff_prefix.2 h)

/-- The name of a callout has letters and digits only. -/
theorem alphanum_tagName (k : CalloutKind) :
    ∀ c ∈ k.tagName, c.isAlphanum = true := by
  have hall : ∀ k ∈ all, ∀ c ∈ k.tagName, c.isAlphanum = true := by decide
  exact hall k k.mem_all

/-- The kind of the tags with a name. -/
def named? (name : Text) : Option CalloutKind :=
  all.find? fun k => k.tagName == name

/-- A kind is found by its name and by nothing else. -/
theorem named?_eq_some_iff {name : Text} {k : CalloutKind} :
    named? name = some k ↔ k.tagName = name := by
  have hfound {k : CalloutKind} (h : named? name = some k) :
      k.tagName = name :=
    eq_of_beq (List.find?_some (p := fun k : CalloutKind => k.tagName == name)
      h)
  constructor
  · exact hfound
  · intro h
    have hsome : (named? name).isSome = true := by
      unfold named?
      rw [List.find?_isSome]
      exact ⟨k, k.mem_all, beq_iff_eq.2 h⟩
    obtain ⟨k', hk'⟩ := Option.isSome_iff_exists.1 hsome
    have hprefix : k'.tagName <+: k.tagName :=
      ⟨[], by rw [List.append_nil, hfound hk', h]⟩
    rw [hk', tagName_isPrefix hprefix]

end CalloutKind

namespace CalloutTag

/-- The end of a callout tag is found, with a slash or without. -/
theorem seesEnds_end : SeesEnds end? true := by
  have hend {c : Char} {s : Text} (hc : c ≠ '>') : CalloutTag.end? (c :: s)
      = (selfClose? (c :: s)).map fun t => ⟨t, true⟩ := by
    unfold CalloutTag.end?
    split
    · rename_i heq
      exact absurd (List.cons.inj heq).1 hc
    · rfl
  have hblank {b : Char} (hb : isBlank b = true) : b ≠ '>' := by
    rintro rfl
    exact absurd hb (by decide)
  have hself := seesEnds_selfClose true
  constructor
  · intro blanks s hblanks
    cases blanks with
    | nil => exact (hend (by decide)).trans (hself.slash [] s hblanks)
    | cons b blanks =>
      have hb := hblank (hblanks b List.mem_cons_self)
      exact (hend hb).trans (hself.slash _ s hblanks)
  · intro blanks c s hblanks hc hslash hclose
    cases blanks with
    | nil => exact (hend hclose).trans (hself.visible [] c s hblanks hc hslash
        hclose)
    | cons b blanks =>
      have hb := hblank (hblanks b List.mem_cons_self)
      exact (hend hb).trans (hself.visible _ c s hblanks hc hslash hclose)
  · intro b blanks s hblanks
    have hb := hblank (hblanks b List.mem_cons_self)
    exact (hend hb).trans (hself.close b blanks s hblanks)

/-- A tag starts with `<`. -/
theorem ofText?_of_ne {c : Char} (hc : c ≠ '<') (s : Text) :
    ofText? (c :: s) = none := by
  unfold ofText?
  split
  · rename_i heq
    exact absurd (List.cons.inj heq).1 hc
  · rename_i heq
    exact absurd (List.cons.inj heq).1 hc
  · rfl

theorem seeksTags_scanner : scanner.SeeksTags :=
  fun _ hc s => ofText?_of_ne hc s

/-- Without a slash behind it, that is an opening tag. -/
theorem ofText?_of_no_slash {s : Text} (hs : ∀ rest, s ≠ '/' :: rest) :
    ofText? ('<' :: s) = read? ['<'] false s := by
  unfold ofText?
  split
  · rename_i rest heq
    exact absurd (List.cons.inj heq).2 (hs rest)
  · rename_i heq
    rw [(List.cons.inj heq).2]
  · rename_i hnot
    exact absurd rfl (hnot s)

/-- A tag is read as one of the kind that its whole name is. -/
theorem read?_name {f : Char → Bool} (hf : NameClass f)
    {opening name rest : Text} {closing : Bool}
    (hname : ∀ c ∈ name, f c = true) (hrest : ∀ c ∈ rest.head?, f c = false) :
    read? opening closing (name ++ rest)
      = (CalloutKind.named? name).bind fun kind =>
        (attributes? end? rest).map fun r =>
          ⟨opening ++ name ++ r.1 ++ r.2.taken,
            ⟨closing, kind, r.1, r.2.value⟩⟩ := by
  unfold read?
  cases hkind : CalloutKind.ofText? (name ++ rest) with
  | none =>
    have hnone : CalloutKind.named? name = none := by
      rw [Option.eq_none_iff_forall_ne_some]
      intro k hk
      unfold CalloutKind.ofText? at hkind
      rw [List.find?_eq_none] at hkind
      refine hkind k k.mem_all (List.isPrefixOf_iff_prefix.2 ?_)
      rw [CalloutKind.named?_eq_some_iff.1 hk]
      exact List.prefix_append _ _
    rw [hnone]
    rfl
  | some k =>
    obtain ⟨after, hafter⟩ := CalloutKind.ofText?_isPrefix hkind
    rw [Option.bind_some, ← hafter, List.drop_left]
    rcases word_split (hf.of_alphanum k.alphanum_tagName) hrest hafter.symm
      with ⟨rfl, rfl⟩ | ⟨d, more, hmore, hafter⟩
    · rw [CalloutKind.named?_eq_some_iff.2 rfl]
      rfl
    · have hd : f d = true := hname d (by rw [hmore]; simp)
      have hnone : CalloutKind.named? name = none := by
        rw [Option.eq_none_iff_forall_ne_some]
        intro k' hk'
        have hname' := CalloutKind.named?_eq_some_iff.1 hk'
        have hsame : k = k' := CalloutKind.tagName_isPrefix (by
          rw [hname', hmore]
          exact List.prefix_append _ _)
        rw [hsame, ← hname'] at hmore
        have hlength := congrArg List.length hmore
        rw [List.length_append, List.length_cons] at hlength
        omega
      rw [hafter, List.cons_append, hf.attributes?_eq_none seesEnds_end hd,
        hnone]
      rfl

end CalloutTag

-- ============================================================= iframes

namespace SelfClosingIframe

/-- An iframe starts with its opening. -/
theorem scan_of_not_isPrefix {s : Text} (h : ¬ opening <+: s) :
    scanner.scan s = none := by
  show (ofText? s).map _ = none
  unfold ofText?
  rw [if_neg fun hprefix => h (List.isPrefixOf_iff_prefix.1 hprefix)]
  rfl

theorem seeksTags_scanner : scanner.SeeksTags := by
  intro c hc s
  refine scan_of_not_isPrefix fun hprefix => ?_
  have hopening : opening = '<' :: "iframe".toList := by decide
  rw [hopening, List.cons_prefix_cons] at hprefix
  exact hc hprefix.1.symm

/-- An iframe is read as one if that is its whole name. -/
theorem ofText?_name {f : Char → Bool} (hf : NameClass f) {name rest : Text}
    (hname : ∀ c ∈ name, f c = true) (hrest : ∀ c ∈ rest.head?, f c = false) :
    ofText? ('<' :: (name ++ rest))
      = if name = "iframe".toList then
          attributes? (fun s => (selfClose? s).map fun t => ⟨t, ()⟩) rest
        else none := by
  have hopening : opening = '<' :: "iframe".toList := by decide
  have hletters : ∀ c ∈ "iframe".toList, f c = true :=
    hf.of_alphanum (by decide)
  unfold ofText?
  by_cases hprefix : opening.isPrefixOf ('<' :: (name ++ rest)) = true
  · rw [if_pos hprefix]
    rw [hopening] at hprefix ⊢
    obtain ⟨after, hafter⟩ := List.isPrefixOf_iff_prefix.1 hprefix
    have hsplit := (List.cons.inj hafter).2.symm
    rw [← hafter, List.drop_left]
    -- the prefix is the whole name, or the name of another tag goes on
    rcases word_split hletters hrest hsplit with
      ⟨heq, rfl⟩ | ⟨d, more, hmore, hafter⟩
    · rw [if_pos heq]
    · have hd : f d = true := hname d (by rw [hmore]; simp)
      have hne : name ≠ "iframe".toList := by
        rw [hmore]
        simp
      rw [if_neg hne, hafter, List.cons_append,
        hf.attributes?_eq_none (seesEnds_selfClose ()) hd]
  · have hne : name ≠ "iframe".toList := by
      rintro rfl
      refine hprefix (List.isPrefixOf_iff_prefix.2 ?_)
      rw [hopening, ← List.cons_append]
      exact List.prefix_append _ _
    rw [if_neg hprefix, if_neg hne]

end SelfClosingIframe

end ComponentMarkdown
