/-
Scanning a tagged text. A scanner that looks for `<` comes upon one where a
tag starts, and otherwise only within quoted values. If it reads nothing
within them (`QuotedValue.UnreadBy`), it passes over every tag that it does
not take, and the text is cut into its parts, each of them either a hit or
characters (`pieces_written`).
-/
import ComponentMarkdown.Proofs.Tagged.Parts
import ComponentMarkdown.Proofs.TaggedText.Grammar

namespace ComponentMarkdown.TaggedText

open Markup
open Scanner (passesOver_nil passesOver_flatMap)

/-- Whether a scanner reads nothing within a value, whatever follows the
value. -/
def QuotedValue.UnreadBy {β : Type} (sc : Scanner β) (v : QuotedValue) :
    Prop :=
  ∀ a b, v.text = a ++ b → ∀ s, sc.scan (b ++ v.quote :: s) = none

variable {β : Type} {sc : Scanner β}

-- ======================================================== passing over

section

variable (hsc : sc.SeeksTags)

include hsc

/-- Where nothing is read within a value, it is passed over. -/
theorem QuotedValue.passesOver_written {v : QuotedValue}
    (h : v.UnreadBy sc) : sc.PassesOver v.written := by
  have hquote : sc.PassesOver [v.quote] := by
    refine hsc.passesOver_of_class (f := isQuote) (by decide) ?_
    exact List.forall_mem_singleton.2 v.quote_isQuote
  -- the induction is on what is left of the value
  have hrest (s : Text) (a b : Text) (heq : v.text = a ++ b) :
      sc.pieces (b ++ v.quote :: s)
        = b.map .char ++ sc.pieces (v.quote :: s) := by
    induction b generalizing a with
    | nil => rfl
    | cons c b ih =>
      have hnone := h a (c :: b) heq s
      rw [List.cons_append] at hnone ⊢
      rw [sc.pieces_of_none hnone, ih (a ++ [c]) (by simp [heq])]
      rfl
  intro s
  have hall := hquote (v.text ++ v.quote :: s)
  rw [hrest s [] v.text rfl] at hall
  have hend := hquote s
  rw [List.singleton_append] at hend
  unfold written
  rw [List.cons_append, List.append_assoc, List.singleton_append]
  rw [List.singleton_append, hend] at hall
  rw [hall]
  simp

/-- Where nothing is read within its value, a part is passed over, -/
theorem Part.passesOver_written {part : Part}
    (h : ∀ a ∈ part.attribute?, ∀ v ∈ a.value?, v.UnreadBy sc) :
    sc.PassesOver part.written := by
  cases part with
  | blank b => exact passesOver_blanks hsc [b]
  | attr a =>
    have hhead : sc.PassesOver a.head :=
      (passesOver_blanks hsc [a.lead]).append
        (hsc.passesOver_of_class (f := isNameChar) (by decide)
          a.name.nameChar)
    refine hhead.append ?_
    unfold Attribute.ending
    cases hassigned : a.assigned with
    | none => exact passesOver_nil
    | some v =>
      have hvalue : v.value.UnreadBy sc := by
        refine h a rfl v.value ?_
        unfold Attribute.value?
        rw [hassigned]
        rfl
      have hequals : sc.PassesOver ['='] :=
        hsc.passesOver (by decide)
      exact (passesOver_blanks hsc v.before).append (hequals.append
        ((passesOver_blanks hsc v.after).append
          (QuotedValue.passesOver_written hsc hvalue)))

/-- and so is a tag behind its `<`. -/
theorem OpenTag.passesOver_body {tag : OpenTag Part}
    (h : ∀ v ∈ tag.values, v.UnreadBy sc) : sc.PassesOver tag.body := by
  have hparts : sc.PassesOver (tag.parts.flatMap Part.written) := by
    refine passesOver_flatMap fun part hpart => ?_
    refine Part.passesOver_written hsc fun a ha v hv => h v ?_
    exact List.mem_filterMap.2
      ⟨a, List.mem_filterMap.2 ⟨part, hpart, ha⟩, hv⟩
  have hending : sc.PassesOver tag.ending := by
    refine hsc.passesOver ?_
    unfold ending
    cases tag.slash <;> decide
  exact (tag.name.passesOver_text hsc).append (hparts.append hending)

-- ============================================================== pieces

variable {read? : Item Part → Option β}

/-- The pieces of an item: one hit, if it is read, or characters. -/
def Item.pieces (read? : Item Part → Option β) (item : Item Part) :
    List (Piece β) :=
  Scanner.whole item.written (read? item)

/-- The text is cut into its parts, where what is not taken of it can be
passed over. -/
theorem pieces_written (htext : ∀ t, read? (.text t) = none)
    (hclosing : ∀ (tag : CloseTag) (s : Text),
      sc.scan (tag.written ++ s)
        = (read? (.closing tag)).map (⟨tag.written, ·⟩))
    (hopening : ∀ (tag : OpenTag Part) (s : Text),
      sc.scan (tag.written ++ s)
        = (read? (.opening tag)).map (⟨tag.written, ·⟩))
    {page : TaggedText}
    (hvalues : ∀ tag, .opening tag ∈ page → read? (.opening tag) = none →
      ∀ v ∈ tag.values, v.UnreadBy sc) :
    sc.pieces page.written = page.flatMap (Item.pieces read?) := by
  induction page with
  | nil => exact sc.pieces_nil
  | cons item page ih =>
    have hrest := ih fun tag hmem => hvalues tag (List.mem_cons_of_mem _ hmem)
    have hitem : sc.pieces (item.written ++ Tagged.written page)
        = item.pieces read? ++ sc.pieces (Tagged.written page) := by
      unfold Item.pieces
      cases item with
      | text t =>
        rw [htext]
        exact hsc.passesOver t.plain _
      | closing tag =>
        exact Scanner.pieces_tag (fun _ => tag.passesOver_body hsc)
          (hclosing tag _)
      | opening tag =>
        refine Scanner.pieces_tag (fun hnone => ?_) (hopening tag _)
        exact OpenTag.passesOver_body hsc
          (hvalues tag List.mem_cons_self hnone)
    rw [Tagged.written_cons, List.flatMap_cons, hitem, hrest]

end

end ComponentMarkdown.TaggedText
