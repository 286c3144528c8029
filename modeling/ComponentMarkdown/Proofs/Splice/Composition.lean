/-
What holds of every substitution holds of the whole edit.

A statement about a text, the text made of it and the number of
substitutions between them is carried over from single hits to a splice,
to a splice outside code spans, to a pipeline and to a document, if it
composes: it holds where nothing is substituted, of stretches put side by
side, and of edits made one after the other (`Composes`). Each rule is
then looked at only where it replaces something.
-/
import ComponentMarkdown.Proofs.Markup.CodeSpan
import ComponentMarkdown.Proofs.Markup.Opening
import ComponentMarkdown.Proofs.Transformer.Reference

namespace ComponentMarkdown

open Markup

/-- A relation between a number of substitutions, the text they are made
in, and what they make of it, that edits can be put together along. -/
structure Composes (R : Nat → Text → Text → Prop) : Prop where
  refl (s : Text) : R 0 s s
  append {m n : Nat} {a a' b b' : Text} (ha : R m a a') (hb : R n b b') :
    R (m + n) (a ++ b) (a' ++ b')
  trans {m n : Nat} {a b c : Text} (hab : R m a b) (hbc : R n b c) :
    R (m + n) a c

/-- What an edit makes of a text is related to it. -/
def Edited.Follows (R : Nat → Text → Text → Prop) (s : Text)
    (e : Edited) : Prop := R e.count s e.text

namespace Composes

variable {R : Nat → Text → Text → Prop} (hR : Composes R)

include hR

-- ============================================================ splices

section

variable {α σ : Type} (sc : Scanner α) {edit : Hit α → σ → Edited × σ}

/-- What holds of each replacement holds of the pieces, -/
theorem splicePieces {ps : List (Piece α)}
    (h : ∀ hit ∈ ps.filterMap Piece.hit?, ∀ st,
      (edit hit st).1.count ≠ 0 → (edit hit st).1.Follows R hit.taken)
    (st : σ) :
    (Scanner.splicePieces edit ps st).1.Follows R
      (ps.map Piece.text).flatten := by
  induction ps generalizing st with
  | nil => exact hR.refl []
  | cons p ps ih =>
    cases p with
    | char c =>
      have hrest := hR.append (hR.refl [c]) (ih h st)
      rw [Nat.zero_add] at hrest
      exact hrest
    | hit m =>
      rw [List.filterMap_cons_some (show Piece.hit? (.hit m) = some m from rfl),
        List.forall_mem_cons] at h
      obtain ⟨hm, hps⟩ := h
      have hrest := ih hps (edit m st).2
      rw [Scanner.splicePieces_hit]
      split
      · have hkept := hR.append (hR.refl m.taken) hrest
        rw [Nat.zero_add] at hkept
        exact hkept
      · rename_i hcount
        exact hR.append (hm st hcount) hrest

/-- A splice follows if its substitutions do. -/
theorem spliceFrom {s : Text}
    (h : ∀ hit ∈ sc.hits s, ∀ st,
      (edit hit st).1.count ≠ 0 → (edit hit st).1.Follows R hit.taken)
    (st : σ) : (sc.spliceFrom edit st s).1.Follows R s := by
  have hpieces := hR.splicePieces h st
  rw [sc.pieces_flatten] at hpieces
  exact hpieces

/-- of the whole splice, -/
theorem splice {s : Text} {edit : Hit α → Edited}
    (h : ∀ hit ∈ sc.hits s,
      (edit hit).count ≠ 0 → (edit hit).Follows R hit.taken) :
    (sc.splice edit s).Follows R s :=
  hR.spliceFrom sc (fun hit hmem _ => h hit hmem) ()

/-- Replacing hits one by one counts one for each. -/
theorem replace {s : Text} {new? : Hit α → Option Text}
    (h : ∀ hit ∈ sc.hits s, ∀ new, new? hit = some new →
      R 1 hit.taken new) : (sc.replace new? s).Follows R s := by
  refine hR.splice sc fun hit hmem hcount => ?_
  cases hnew : new? hit with
  | none =>
    rw [hnew] at hcount
    exact absurd rfl hcount
  | some new => exact h hit hmem new hnew

/-- of an edit of opening tags, -/
theorem editOpeningTags {s : Text} {edit : Text → Edited}
    (h : ∀ tag, (edit tag).Follows R tag) :
    (Markup.editOpeningTags edit s).Follows R s :=
  hR.splice openingTags fun hit _ _ => h hit.taken

end

-- ========================================================= code spans

section

variable {σ : Type} {edit : Text → σ → Edited × σ}

/-- of the gaps behind code spans, -/
theorem editTail {tail : List (Text × Text)}
    (h : ∀ gap ∈ tail.map Prod.snd, ∀ st, (edit gap st).1.Follows R gap)
    (st : σ) :
    (CodeSplit.editTail edit tail st).1.Follows R
      (tail.flatMap fun p => p.1 ++ p.2) := by
  induction tail generalizing st with
  | nil => exact hR.refl []
  | cons p tail ih =>
    obtain ⟨span, gap⟩ := p
    rw [List.map_cons, List.forall_mem_cons] at h
    have hspan := hR.append (hR.refl span) (h.1 st)
    rw [Nat.zero_add] at hspan
    exact hR.append hspan (ih h.2 _)

/-- An edit of the gaps between code spans follows if it follows in every
gap. -/
theorem editGaps {s : Text}
    (h : ∀ gap ∈ (CodeSplit.ofText s).gaps, ∀ st,
      (edit gap st).1.Follows R gap) (st : σ) :
    ((CodeSplit.ofText s).editGaps edit st).1.Follows R s := by
  rw [CodeSplit.gaps, List.forall_mem_cons] at h
  have hgaps : ((CodeSplit.ofText s).editGaps edit st).1.Follows R
      (CodeSplit.ofText s).join :=
    hR.append (h.1 st) (hR.editTail h.2 _)
  rw [CodeSplit.join_ofText] at hgaps
  exact hgaps

/-- and of an edit outside code spans. -/
theorem editOutsideCode {s : Text}
    (h : ∀ gap ∈ (CodeSplit.ofText s).gaps, ∀ st,
      (edit gap st).1.Follows R gap) (st : σ) :
    (Markup.editOutsideCode edit st s).1.Follows R s := by
  by_cases htail : (CodeSplit.ofText s).tail = []
  · rw [editOutsideCode_of_tail htail]
    exact hR.editGaps h st
  · rw [editOutsideCode_of_spans htail]
    dsimp only
    split
    · exact hR.refl s
    · exact hR.editGaps h st

end

-- ========================================================== pipelines

/-- A rule behind others adds its count. -/
theorem absorb {source : Text} {before : Pipeline.Output} {rule : Rule}
    (hbefore : R before.tally.total source before.text)
    (hrule : (rule.apply before.text).Follows R before.text) :
    R (before.absorb rule (rule.apply before.text)).tally.total source
      (before.absorb rule (rule.apply before.text)).text := by
  unfold Pipeline.Output.absorb
  split
  · exact hbefore
  · rw [Tally.total_record]
    exact hR.trans hbefore hrule

/-- The rules behind some others follow on what those make. -/
theorem run_append {s : Text} {before after : List Rule}
    (hbefore : R (Pipeline.run ⟨before⟩ s).tally.total s
      (Pipeline.run ⟨before⟩ s).text)
    (h : ∀ mid rule rest, after = mid ++ rule :: rest →
      (rule.apply (Pipeline.run ⟨before ++ mid⟩ s).text).Follows R
        (Pipeline.run ⟨before ++ mid⟩ s).text) :
    R (Pipeline.run ⟨before ++ after⟩ s).tally.total s
      (Pipeline.run ⟨before ++ after⟩ s).text := by
  induction after generalizing before with
  | nil =>
    rw [List.append_nil]
    exact hbefore
  | cons rule after ih =>
    have hrule := h [] rule after rfl
    rw [List.append_nil] at hrule
    have hnext := hR.absorb hbefore hrule
    have hsplit : before ++ rule :: after = (before ++ [rule]) ++ after := by
      rw [List.append_assoc, List.singleton_append]
    rw [hsplit]
    refine ih ?_ fun mid rule' rest heq => ?_
    · unfold Pipeline.run at hnext ⊢
      rw [List.foldl_append]
      exact hnext
    · rw [List.append_assoc, List.singleton_append]
      exact h (rule :: mid) rule' rest (by rw [heq, List.cons_append])

/-- A run follows if every rule follows on the text it is given. -/
theorem run {p : Pipeline} {s : Text}
    (h : ∀ before rule after, p.rules = before ++ rule :: after →
      (rule.apply (Pipeline.run ⟨before⟩ s).text).Follows R
        (Pipeline.run ⟨before⟩ s).text) :
    R (p.run s).tally.total s (p.run s).text := by
  have hstart : R (Pipeline.run ⟨[]⟩ s).tally.total s
      (Pipeline.run ⟨[]⟩ s).text := hR.refl s
  exact hR.run_append hstart h

/-- It is enough that every rule follows on any text. -/
theorem run_of_rules {p : Pipeline}
    (h : ∀ rule ∈ p.rules, ∀ s, (rule.apply s).Follows R s) (s : Text) :
    R (p.run s).tally.total s (p.run s).text := by
  refine hR.run fun before rule after heq => h rule ?_ _
  rw [heq]
  exact List.mem_append_cons_self

-- ========================================================== documents

variable (t : Transformer)

/-- What the segments of a document make follows if what each makes
does. -/
theorem segmentsText {segments : List Segment}
    (h : ∀ s ∈ segments, R (t.segmentOutput s).tally.total s.text
      (t.segmentOutput s).text) (before : Tally) {a a' : Text}
    (ha : R before.total a a') :
    R (segments.foldl (fun tally s => tally.merge (t.segmentOutput s).tally)
        before).total
      (a ++ Segment.joined segments) (a' ++ t.segmentsText segments) := by
  induction segments generalizing before a a' with
  | nil =>
    rw [Segment.joined, Transformer.segmentsText, List.flatMap_nil,
      List.flatMap_nil, List.append_nil, List.append_nil]
    exact ha
  | cons s segments ih =>
    rw [List.forall_mem_cons] at h
    rw [Segment.joined, Transformer.segmentsText, List.flatMap_cons,
      List.flatMap_cons, ← List.append_assoc, ← List.append_assoc]
    refine ih h.2 _ ?_
    rw [Tally.total_merge]
    exact hR.append ha h.1

omit hR in
theorem tally_foldl_absorb (source : Text) (segments : List Segment)
    (p : Transformer.Progress) :
    (segments.foldl (Transformer.Progress.absorb t source) p).tally
      = segments.foldl
        (fun tally s => tally.merge (t.segmentOutput s).tally) p.tally := by
  induction segments generalizing p with
  | nil => rfl
  | cons s segments ih =>
    rw [List.foldl_cons, List.foldl_cons, ih, Transformer.tally_absorb]

/-- An edit of a document follows if the pipeline does on each of its
segments of prose. -/
theorem edit {source : Text}
    (h : ∀ s ∈ Segment.ofDocument source, s.kind = .prose →
      R (t.pipeline.run s.text).tally.total s.text
        (t.pipeline.run s.text).text) :
    R (t.edit source).tally.total source
      ((t.edit source).text?.getD source) := by
  have hsegments : ∀ s ∈ Segment.ofDocument source,
      R (t.segmentOutput s).tally.total s.text (t.segmentOutput s).text := by
    intro s hs
    unfold Transformer.segmentOutput
    cases hk : s.kind with
    | prose => exact h s hs hk
    | verbatim => exact hR.refl s.text
  have hall := hR.segmentsText t hsegments .empty (hR.refl [])
  rw [Segment.joined_segments] at hall
  rw [t.text_edit]
  unfold Transformer.edit
  rw [tally_foldl_absorb]
  exact hall

end Composes

-- ======================================================= counting nothing

/-- To leave the text alone where nothing is counted. -/
theorem composes_untouched : Composes fun n old new => n = 0 → new = old where
  refl _ _ := rfl
  append {m n _ _ _ _} ha hb h := by
    rw [ha (by omega), hb (by omega)]
  trans {m n _ _ _} hab hbc h := by
    rw [hbc (by omega), hab (by omega)]

section

variable {σ : Type} {edit : Text → σ → Edited × σ}
  (hedit : Markup.KeepsUncounted edit)

include hedit

/-- An edit outside code spans gives what it makes of the gaps, also where
it counts nothing. -/
theorem Markup.text_editOutsideCode (st : σ) (s : Text) :
    (editOutsideCode edit st s).1.text
      = ((CodeSplit.ofText s).editGaps edit st).1.text := by
  have huntouched : ((CodeSplit.ofText s).editGaps edit st).1.Follows
      (fun n old new => n = 0 → new = old) s :=
    composes_untouched.editGaps (fun gap _ st => hedit gap st) st
  by_cases htail : (CodeSplit.ofText s).tail = []
  · rw [editOutsideCode_of_tail htail]
  · rw [editOutsideCode_of_spans htail]
    dsimp only
    split
    · rename_i hcount
      exact (huntouched hcount).symm
    · rfl

theorem Markup.text_editOutsideCode_of_count_zero {st : σ} {s : Text}
    (h : (editOutsideCode edit st s).1.count = 0) :
    (editOutsideCode edit st s).1.text = s :=
  composes_untouched.editOutsideCode (fun gap _ st => hedit gap st) st h

end

end ComponentMarkdown
