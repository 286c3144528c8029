/-
Quoted values through an edit. A tagged text without backticks and fences is
one segment of prose; the rules run over it one after the other, and each
leaves a tagged text with the quoted values of the one before it
(`text_edit_tagged`). So an edit keeps every quoted value as it is, and their
order, but for the classes it merges (`quoted_values_edit`).

# The condition

The two rules that look for attributes read a tag from its start and know
what is quoted. Those for iframes and callouts look for a name behind `<`
wherever it stands. So neither may come upon such a name within a value,
unless it has taken the tag that the value belongs to (`OpenTag.Inert`);
where it does, the value is written anew (`quoted_values_edit_callout`).
-/
import ComponentMarkdown.Proofs.Rule.Insertions
import ComponentMarkdown.Proofs.TaggedText.Callouts
import ComponentMarkdown.Proofs.TaggedText.Iframes
import ComponentMarkdown.Proofs.TaggedText.InsideTags
import ComponentMarkdown.Proofs.TaggedText.LoneCallout
import ComponentMarkdown.Proofs.Transformer.Pages

namespace ComponentMarkdown

open Markup

namespace TaggedText

-- ======================================================== inert values

/-- Whether the rules that look for tags read nothing within the values of a
tag that they do not take themselves. -/
structure OpenTag.Inert (tag : OpenTag Part) : Prop where
  iframe : tag.isClosedIframe = false →
    ∀ v ∈ tag.values, v.UnreadBy SelfClosingIframe.scanner
  callout : tag.name.kind? = none →
    ∀ v ∈ tag.values, v.UnreadBy CalloutTag.scanner

/-- Whether this is so of all tags of a text. -/
def Inert (page : TaggedText) : Prop :=
  ∀ tag, .opening tag ∈ page → tag.Inert

/-- A scanner that looks for words without quotes reads nothing within a
value that holds none of them. -/
theorem QuotedValue.unreadBy_of_words {β : Type} {sc : Scanner β}
    {words : List Text}
    (hwords : ∀ word ∈ words, ∀ c ∈ word, isQuote c = false)
    (hscan : ∀ s, (sc.scan s).isSome → ∃ word ∈ words, word <+: s)
    {v : QuotedValue} (hv : ∀ word ∈ words, ¬ word <:+: v.text) :
    v.UnreadBy sc := by
  intro a b heq s
  rw [← Option.not_isSome_iff_eq_none]
  intro hsome
  obtain ⟨word, hword, rest, hrest⟩ := hscan _ hsome
  -- the quote behind the value ends what could be such a word
  have hinside : word <+: b := by
    have hvisible : ∀ c ∈ word, (!isQuote c) = true := by
      intro c hc
      rw [hwords word hword c hc]
      rfl
    have hquote : ∀ c ∈ (v.quote :: s).head?, (!isQuote c) = false := by
      intro c hc
      cases hc
      rw [v.quote_isQuote]
      rfl
    rcases word_split hvisible hquote hrest.symm with
      ⟨rfl, -⟩ | ⟨d, more, rfl, -⟩
    · exact List.prefix_rfl
    · exact List.prefix_append _ _
  refine hv word hword (hinside.isInfix.trans ?_)
  rw [heq]
  exact (List.suffix_append a b).isInfix

/-- How the tags start that these rules look for. -/
def tagStarts : List Text :=
  SelfClosingIframe.opening :: CalloutKind.all.flatMap fun kind =>
    ['<' :: kind.tagName, '<' :: '/' :: kind.tagName]

/-- A tag is inert if no value of it holds the start of such a tag. -/
theorem OpenTag.inert_of_values {tag : OpenTag Part}
    (h : ∀ v ∈ tag.values, ∀ word ∈ tagStarts, ¬ word <:+: v.text) :
    tag.Inert := by
  have hwords : ∀ word ∈ tagStarts, ∀ c ∈ word, isQuote c = false := by
    decide
  have hcallout {kind : CalloutKind} {closing : Text}
      (hclosing : closing ∈ [[], ['/']]) :
      '<' :: (closing ++ kind.tagName) ∈ tagStarts := by
    have hall : ∀ closing ∈ [[], ['/']], ∀ kind ∈ CalloutKind.all,
        '<' :: (closing ++ kind.tagName) ∈ tagStarts := by decide
    exact hall closing hclosing kind kind.mem_all
  have hread {s before : Text} {closing : Bool}
      (hsome : (CalloutTag.read? before closing s).isSome) :
      ∃ kind : CalloutKind, kind.tagName <+: s := by
    obtain ⟨tag, htag⟩ := Option.isSome_iff_exists.1 hsome
    obtain ⟨kind, hkind, -⟩ := Option.bind_eq_some_iff.1 htag
    exact ⟨kind, CalloutKind.ofText?_isPrefix hkind⟩
  constructor
  · intro _ v hv
    refine QuotedValue.unreadBy_of_words hwords (fun s hsome => ?_) (h v hv)
    refine ⟨SelfClosingIframe.opening, List.mem_cons_self, ?_⟩
    by_contra hprefix
    rw [SelfClosingIframe.scan_of_not_isPrefix hprefix] at hsome
    cases hsome
  · intro _ v hv
    refine QuotedValue.unreadBy_of_words hwords (fun s hsome => ?_) (h v hv)
    have hsome : (CalloutTag.ofText? s).isSome := hsome
    unfold CalloutTag.ofText? at hsome
    split at hsome
    · obtain ⟨kind, hkind⟩ := hread hsome
      exact ⟨_, hcallout (List.mem_cons_of_mem _ List.mem_cons_self),
        List.cons_prefix_cons.2 ⟨rfl, List.cons_prefix_cons.2 ⟨rfl, hkind⟩⟩⟩
    · obtain ⟨kind, hkind⟩ := hread hsome
      exact ⟨_, hcallout List.mem_cons_self,
        List.cons_prefix_cons.2 ⟨rfl, hkind⟩⟩
    · cases hsome

end TaggedText

-- ================================================================ edits

namespace Transformer

open TaggedText

/-- With iframes closed and names lowered, tags are as inert as before. -/
theorem unreadBy_callouts {page : TaggedText} (h : page.Inert) :
    ∀ tag, .opening tag ∈ page.closed.lowered → tag.name.kind? = none →
      ∀ v ∈ tag.values, v.UnreadBy CalloutTag.scanner := by
  intro tag htag hnone v hv
  obtain ⟨low, hlow, hname, hvalues⟩ := exists_opening_of_lowered htag
  obtain ⟨old, hold, hname', hvalues'⟩ := exists_opening_of_closed hlow
  rw [hname, hname'] at hnone
  rw [hvalues, hvalues'] at hv
  exact (h old hold).callout hnone v hv

/-- An edit makes of a tagged text what its parts become. -/
theorem text_edit_tagged {page : TaggedText} (hcode : '\x60' ∉ page.written)
    (hfence : ∀ line ∈ Text.lines page.written, Fence.ofLine? line = none)
    (h : page.Inert) :
    (standard.edit page.written).text?.getD page.written
      = page.rewritten.written := by
  have hnoFence : NoFence [] page.written := by
    rw [NoFence.iff_lines List.not_mem_nil, List.nil_append]
    intro line hline fence hopens
    rw [← Fence.ofLine?_eq_some_iff, hfence line hline] at hopens
    cases hopens
  have hclosed : (Rule.iframeClosing.apply page.written).text
      = page.closed.written :=
    text_apply_iframeClosing_tagged fun tag htag => (h tag htag).iframe
  have hlowered := text_apply_attributeCasing_tagged page.closed
  -- no rule writes a backtick
  have hcode : '\x60' ∉ page.closed.lowered.written := by
    rw [← hlowered, ← hclosed]
    have hnot : '\x60' ∉ inserted := by decide
    refine Rule.lacks_apply hnot (by simp [Registry.rules]) _ ?_
    exact Rule.lacks_apply hnot (by simp [Registry.rules]) _ hcode
  have hrules : standard.pipeline.rules = Registry.rules := rfl
  rw [text_edit_of_noFence (fun _ h => h) hnoFence, hrules, Registry.rules,
    List.foldl_cons,
    List.foldl_cons, List.foldl_cons, List.foldl_cons, List.foldl_nil,
    text_apply_braceAttributes_tagged, hclosed, hlowered,
    text_apply_callouts_tagged hcode (unreadBy_callouts h)]
  rfl

/-- An edit of a tagged text without backticks and fences, whose values are
inert, leaves a tagged text. Every quoted value is in it, with its quotes
and in the same order, but for the classes that are merged into those of a
container. -/
theorem quoted_values_edit {page : TaggedText}
    (hcode : '\x60' ∉ page.written)
    (hfence : ∀ line ∈ Text.lines page.written, Fence.ofLine? line = none)
    (h : page.Inert) :
    ∃ page' : TaggedText,
      (standard.edit page.written).text?.getD page.written = page'.written
        ∧ page.keptValues.Sublist page'.values :=
  ⟨page.rewritten, text_edit_tagged hcode hfence h, page.keptValues_sublist⟩

/-- A tag with a title, and its closing tag. -/
def titled (name : TagName) (title : QuotedValue) : TaggedText :=
  [.opening {
      name
      parts := [.attr {
        lead := ⟨' ', isBlank_space⟩
        name := ⟨"title".toList, title_ne_nil, nameChar_title⟩
        assigned := some ⟨[], [], title⟩ }]
      slash := false },
    .closing ⟨name, []⟩]

/-- The name of a callout. -/
def noteName : TagName := noteTag

/-- The name of a tag that no rule looks for. -/
def cardName : TagName := ⟨'C', "ard".toList, by decide, by decide +kernel⟩

/-- A title with a tag in it that no rule looks for. -/
def boldTitle : QuotedValue := ⟨'\'', "<b>".toList, isQuote_single, by decide⟩

/-- A title with a callout in it. -/
def noteTitle : QuotedValue := ⟨'"', "<Note>".toList, isQuote_double, by decide⟩

/-- A callout whose title looks like a tag that is none of a callout. -/
theorem quoted_values_edit_bold :
    (titled noteName boldTitle).written
        = "<Note title='<b>'></Note>".toList
      ∧ (titled noteName boldTitle).keptValues = [boldTitle]
      ∧ ∃ page' : TaggedText,
        (standard.edit (titled noteName boldTitle).written).text?.getD
            (titled noteName boldTitle).written = page'.written
          ∧ (titled noteName boldTitle).keptValues.Sublist page'.values := by
  refine ⟨by decide +kernel, rfl, ?_⟩
  refine quoted_values_edit (by decide +kernel) (by decide +kernel) ?_
  intro tag htag
  refine OpenTag.inert_of_values ?_
  rcases List.mem_cons.1 htag with heq | htag
  · cases heq
    decide +kernel
  · cases List.mem_singleton.1 htag

/-- A card whose title looks like a callout. The quotes of the class that is
written there end the title, and the text of the title is lost. -/
theorem quoted_values_edit_callout :
    '\x60' ∉ (titled cardName noteTitle).written
      ∧ (∀ line ∈ Text.lines (titled cardName noteTitle).written,
        Fence.ofLine? line = none)
      ∧ (titled cardName noteTitle).written
        = "<Card title=\"<Note>\"></Card>".toList
      ∧ (standard.edit (titled cardName noteTitle).written).text?
        = some ("<Card title=\"<div class=\"callout callout-note\">\">"
          ++ "</Card>").toList
      ∧ (titled cardName noteTitle).keptValues = [noteTitle]
      ∧ ¬ ∃ page' : TaggedText,
        (standard.edit (titled cardName noteTitle).written).text?.getD
            (titled cardName noteTitle).written = page'.written
          ∧ (titled cardName noteTitle).keptValues.Sublist page'.values := by
  have hedit : (standard.edit (titled cardName noteTitle).written).text?
      = some ("<Card title=\"<div class=\"callout callout-note\">\">"
        ++ "</Card>").toList := by
    decide +kernel
  refine ⟨by decide +kernel, by decide +kernel, by decide +kernel, hedit, rfl,
    ?_⟩
  rintro ⟨page', hwritten, hkept⟩
  have htitle : noteTitle ∈ page'.values := hkept.subset List.mem_cons_self
  have hinfix := isInfix_written htitle
  rw [← hwritten, hedit] at hinfix
  exact absurd hinfix (by decide +kernel)

end Transformer

end ComponentMarkdown
