/-
Opening tags of tagged text, attribute by attribute. The scanners that look
for attributes pass over quoted values and take nothing but what starts with
the blank before a name. So a part is cut into what they make of its
attribute (`Part.pieces_written`), and a splice that turns each attribute
into another one does so to the tag (`text_splice_openTag`).
-/
import ComponentMarkdown.Proofs.Rule.AttributeScanners
import ComponentMarkdown.Proofs.TaggedText.Rewriting
import ComponentMarkdown.Proofs.TaggedText.Scanning

namespace ComponentMarkdown.TaggedText

open Markup

-- ================================================= pieces of attributes

/-- What a scanner makes of what follows the name of an attribute, if it
does not read the attribute. -/
def Attribute.endingPieces {β : Type} (a : Attribute) :
    List (Piece (Option β)) :=
  match a.assigned with
  | none => []
  | some v =>
    (v.before.map Subtype.val).map .char
      ++ (.char '=' :: ((v.after.map Subtype.val).map .char
        ++ [.hit ⟨v.value.written, none⟩]))

/-- What a scanner makes of an attribute that it does not read. -/
def Attribute.unread {β : Type} (a : Attribute) : List (Piece (Option β)) :=
  a.head.map .char ++ a.endingPieces

/-- The pieces of a part, if those of attributes are known. -/
def Part.pieces {β : Type} (pieces : Attribute → List (Piece (Option β))) :
    Part → List (Piece (Option β))
  | .blank b => [.char b.val]
  | .attr a => pieces a

/-- A value in quotes is read as a whole. -/
theorem QuotedValue.quoted?_written (v : QuotedValue) (s : Text) :
    quoted? (v.written ++ s) = some v.written := by
  unfold written
  rw [List.cons_append, List.append_assoc, List.singleton_append, quoted?,
    if_pos v.quote_isQuote, through?_of_not_mem v.unquoted]
  rfl

section

variable {β : Type} {sc : Scanner (Option β)} {scan : Text → Option (Hit β)}
  (hsc : PassesQuoted sc scan) (hstarts : StartsAttributes scan)

include hsc hstarts

/-- What follows a name is cut into characters and the quoted value. -/
theorem Attribute.pieces_ending (a : Attribute) (s : Text) :
    sc.pieces (a.ending ++ s) = a.endingPieces ++ sc.pieces s := by
  unfold ending endingPieces
  cases a.assigned with
  | none => rfl
  | some v =>
    have hquote : NoName (v.value.written ++ s) := by
      intro c hc
      cases hc
      rcases isQuote_iff.1 v.value.quote_isQuote with hq | hq <;>
        rw [hq] <;> decide
    have hequals : NoName ('=' :: (v.after.map Subtype.val
        ++ (v.value.written ++ s))) := by
      intro c hc
      cases hc
      decide
    have hvisible := pieces_visible hsc hstarts (t := ['='])
      (List.forall_mem_singleton.2 (by decide))
      (v.after.map Subtype.val ++ (v.value.written ++ s))
    rw [List.singleton_append] at hvisible
    have hwritten : v.written ++ s = v.before.map Subtype.val
        ++ '=' :: (v.after.map Subtype.val ++ (v.value.written ++ s)) := by
      simp [Assigned.written]
    dsimp only
    rw [hwritten, pieces_blanks hsc hstarts v.before hequals, hvisible,
      pieces_blanks hsc hstarts v.after hquote,
      sc.pieces_append_of_hit (hsc.of_quoted (v.value.quoted?_written s))]
    simp

/-- An attribute of which nothing is read is passed over. -/
theorem Attribute.pieces_unread {a : Attribute} {s : Text}
    (h : scan (a.written ++ s) = none) :
    sc.pieces (a.written ++ s) = a.unread ++ sc.pieces s := by
  have hname : ∀ c ∈ a.name.text, isBlank c = false ∧ isQuote c = false :=
    fun c hc => ⟨isBlank_of_isNameChar (a.name.nameChar c hc),
      isQuote_of_isNameChar (a.name.nameChar c hc)⟩
  unfold written unread head at *
  rw [List.append_assoc, List.cons_append] at h ⊢
  rw [pieces_blank hsc a.lead.2 h,
    pieces_visible hsc hstarts hname, a.pieces_ending hsc hstarts]
  simp

variable {pieces : Attribute → List (Piece (Option β))}
  (h : ∀ (a : Attribute) s, MayFollow s →
    sc.pieces (a.written ++ s) = pieces a ++ sc.pieces s)

include h

/-- A part is cut into the pieces of its attribute, or is a blank. -/
theorem Part.pieces_written (part : Part) (s : Text) (hs : MayFollow s) :
    sc.pieces (part.written ++ s) = part.pieces pieces ++ sc.pieces s := by
  cases part with
  | blank b => exact pieces_blanks hsc hstarts [b] (noName_of_mayFollow hs)
  | attr a => exact h a s hs

/-- A splice that turns each attribute into another one does so to the
tag. -/
theorem text_splice_openTag {edit : Hit (Option β) → Edited}
    {f : Attribute → Attribute}
    (hedit : ∀ a,
      (pieces a).flatMap (Scanner.splicedPiece edit) = (f a).written)
    (tag : OpenTag Part) :
    (sc.splice edit tag.written).text
      = (tag.mapParts (Part.map f)).written := by
  refine OpenTag.text_splice_written hsc hstarts
    (Part.pieces_written hsc hstarts h) (fun part => ?_) tag
  cases part with
  | blank b => rfl
  | attr a => exact hedit a

end

section

variable {β : Type} {new? : Hit (Option β) → Option Text}
  (hnew : ∀ t, new? ⟨t, none⟩ = none)

include hnew

/-- Where nothing is read, nothing is replaced. -/
theorem Attribute.text_endingPieces (a : Attribute) :
    a.endingPieces.flatMap (Scanner.splicedPiece fun h =>
      Scanner.substitution h (new? h)) = a.ending := by
  unfold endingPieces ending
  cases a.assigned with
  | none => rfl
  | some v =>
    have hvalue : Scanner.spliced
        (fun h => Scanner.substitution h (new? h)) ⟨v.value.written, none⟩
        = v.value.written := by
      rw [Scanner.spliced_substitution, hnew]
      rfl
    dsimp only
    rw [List.flatMap_append, List.flatMap_cons, List.flatMap_append,
      Scanner.splicedPiece_chars, Scanner.splicedPiece_chars,
      List.flatMap_singleton, Scanner.splicedPiece, Scanner.splicedPiece,
      hvalue]
    rfl

/-- What is not read of an attribute stays. -/
theorem Attribute.text_unread (a : Attribute) :
    a.unread.flatMap (Scanner.splicedPiece fun h =>
      Scanner.substitution h (new? h)) = a.written := by
  unfold unread written
  rw [List.flatMap_append, Scanner.splicedPiece_chars,
    a.text_endingPieces hnew]

/-- And nothing is counted. -/
theorem Attribute.counted_unread (a : Attribute) :
    Scanner.counted (fun h => Scanner.substitution h (new? h)) a.unread
      = 0 := by
  unfold unread endingPieces
  rw [Scanner.counted_append, Scanner.counted_chars, Nat.zero_add]
  cases a.assigned with
  | none => rfl
  | some v =>
    have hvalue : Scanner.counted (fun h => Scanner.substitution h (new? h))
        [.hit ⟨v.value.written, none⟩] = 0 := by
      show (Scanner.substitution _ (new? ⟨v.value.written, none⟩)).count + 0
        = 0
      rw [hnew]
      rfl
    dsimp only
    rw [Scanner.counted_append, Scanner.counted_chars, Scanner.counted,
      Scanner.counted_append, Scanner.counted_chars, hvalue]

end

end ComponentMarkdown.TaggedText
